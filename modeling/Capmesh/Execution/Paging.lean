import Mathlib
import Mathlib.Data.List.Nodup
import Mathlib.Order.Defs.LinearOrder

/-!
# Reading a list in pages while it shrinks

A sweep reads a list of keys page by page and handles each key of a page before it asks
for the next one. Handling a key may take another key out of the list, and a key taken out
before its page is read is never handled. `sweep_eq_iff` says when every key is handled:
when no key takes out one of a later page.
-/

namespace Execution

variable {α : Type} [DecidableEq α] {size fuel : Nat} {hits : α → Option α} {keys : List α}
variable {key : α}

/-- The keys that are left behind a page, without the ones the page takes out. -/
def leftBehind (size : Nat) (hits : α → Option α) (keys : List α) : List α :=
  (keys.drop size).filter fun key => !(keys.take size).any fun handled => hits handled = some key

/-- The keys a sweep handles, in order; the fuel counts pages. -/
def sweepFrom (size : Nat) (hits : α → Option α) : Nat → List α → List α
  | 0, _ => []
  | _ + 1, [] => []
  | fuel + 1, key :: keys =>
      (key :: keys).take size ++ sweepFrom size hits fuel (leftBehind size hits (key :: keys))

/-- The keys a sweep handles: there are at most as many pages as keys. -/
def sweep (size : Nat) (hits : α → Option α) (keys : List α) : List α :=
  sweepFrom size hits keys.length keys

/-- No key takes out a key of a later page. -/
def Undisturbed (size : Nat) (hits : α → Option α) (keys : List α) : Prop :=
  ∀ i j key other, keys[i]? = some key → keys[j]? = some other → i / size < j / size →
    hits key ≠ some other

theorem left_behind_sublist : (leftBehind size hits keys).Sublist (keys.drop size) :=
  List.filter_sublist

theorem length_left_behind (hits : α → Option α) (hsize : 0 < size) (hkeys : keys ≠ []) :
    (leftBehind size hits keys).length < keys.length := by
  have hshorter : (leftBehind size hits keys).length ≤ (keys.drop size).length :=
    left_behind_sublist.length_le
  have hpos : 0 < keys.length := List.length_pos_iff.mpr hkeys
  rw [List.length_drop] at hshorter
  omega

theorem sweep_from_sublist : (sweepFrom size hits fuel keys).Sublist keys := by
  induction fuel generalizing keys with
  | zero => exact List.nil_sublist keys
  | succ fuel ih =>
      cases keys with
      | nil => exact List.Sublist.refl []
      | cons key keys =>
          show ((key :: keys).take size ++ _).Sublist (key :: keys)
          conv => rhs; rw [← List.take_append_drop size (key :: keys)]
          exact (List.Sublist.refl _).append (ih.trans left_behind_sublist)

/-- Enough fuel reads every page: more of it changes nothing. -/
theorem sweep_from_enough {more : Nat} (hsize : 0 < size) (hfuel : keys.length ≤ fuel)
    (hmore : keys.length ≤ more) : sweepFrom size hits fuel keys = sweepFrom size hits more keys := by
  induction fuel generalizing keys more with
  | zero =>
      obtain rfl : keys = [] := List.length_eq_zero_iff.mp (by omega)
      cases more <;> rfl
  | succ fuel ih =>
      cases keys with
      | nil => cases more <;> rfl
      | cons key keys =>
          have hleft := length_left_behind hits hsize (List.cons_ne_nil key keys)
          cases more with
          | zero => simp at hmore
          | succ more =>
              rw [List.length_cons] at hleft hfuel hmore
              show (key :: keys).take size ++ sweepFrom size hits fuel _ =
                (key :: keys).take size ++ sweepFrom size hits more _
              rw [ih (by omega) (by omega : _ ≤ more)]

theorem sweep_from_eq (hsize : 0 < size) (hfuel : keys.length ≤ fuel) :
    sweepFrom size hits fuel keys = sweep size hits keys :=
  sweep_from_enough hsize hfuel (Nat.le_refl _)

/-- A sweep handles a page and then sweeps what the page leaves behind. -/
theorem sweep_eq (hsize : 0 < size) :
    sweep size hits keys = keys.take size ++ sweep size hits (leftBehind size hits keys) := by
  cases keys with
  | nil => simp [sweep, sweepFrom, leftBehind]
  | cons key keys =>
      have hleft := length_left_behind hits hsize (List.cons_ne_nil key keys)
      rw [List.length_cons] at hleft
      show (key :: keys).take size ++ sweepFrom size hits keys.length _ = _
      rw [sweep_from_eq hsize (by omega)]

theorem sweep_sublist : (sweep size hits keys).Sublist keys := sweep_from_sublist

theorem sweep_induction {motive : List α → Prop} (hits : α → Option α) (hsize : 0 < size)
    (hnil : motive [])
    (hpage : ∀ keys, keys ≠ [] → motive (leftBehind size hits keys) → motive keys)
    (keys : List α) : motive keys := by
  generalize hlength : keys.length = length
  induction length using Nat.strongRecOn generalizing keys with
  | ind length ih =>
      by_cases hkeys : keys = []
      · rw [hkeys]
        exact hnil
      · have hleft := length_left_behind hits hsize hkeys
        exact hpage keys hkeys (ih _ (by omega) _ rfl)

theorem left_behind_eq_iff : leftBehind size hits keys = keys.drop size ↔
    ∀ key ∈ keys.take size, ∀ other ∈ keys.drop size, hits key ≠ some other := by
  unfold leftBehind
  rw [List.filter_eq_self]
  simp only [Bool.not_eq_true', List.any_eq_false, decide_eq_true_eq]
  exact ⟨fun h key hkey other hother => h other hother key hkey,
    fun h other hother key hkey => h key hkey other hother⟩

omit [DecidableEq α] in
/-- The pages after the first are the pages of the rest. -/
theorem undisturbed_iff (hsize : 0 < size) : Undisturbed size hits keys ↔
    (∀ key ∈ keys.take size, ∀ other ∈ keys.drop size, hits key ≠ some other) ∧
      Undisturbed size hits (keys.drop size) := by
  have hpage : ∀ n, (size + n) / size = n / size + 1 := fun n => by
    rw [Nat.add_comm, Nat.add_div_right n hsize]
  constructor
  · refine fun h => ⟨fun key hkey other hother => ?_, fun i j key other hi hj hlt => ?_⟩
    · obtain ⟨i, hi⟩ := List.getElem?_of_mem hkey
      obtain ⟨j, hj⟩ := List.getElem?_of_mem hother
      rw [List.getElem?_take] at hi
      split at hi
      · rename_i hfirst
        rw [List.getElem?_drop] at hj
        refine h i (size + j) key other hi hj ?_
        rw [Nat.div_eq_of_lt hfirst, hpage]
        exact Nat.succ_pos _
      · cases hi
    · rw [List.getElem?_drop] at hi hj
      refine h (size + i) (size + j) key other hi hj ?_
      rw [hpage, hpage]
      omega
  · rintro ⟨hfirst, hrest⟩ i j key other hi hj hlt
    have hj' : size ≤ j := by
      by_contra hj'
      rw [Nat.div_eq_of_lt (by omega : j < size)] at hlt
      exact Nat.not_lt_zero _ hlt
    obtain ⟨later, rfl⟩ := Nat.exists_eq_add_of_le hj'
    by_cases hi' : i < size
    · refine hfirst key ?_ other ?_
      · exact List.mem_of_getElem? (i := i) (by rw [List.getElem?_take, if_pos hi', hi])
      · exact List.mem_of_getElem? (i := later) (by rw [List.getElem?_drop, hj])
    · obtain ⟨earlier, rfl⟩ := Nat.exists_eq_add_of_le (by omega : size ≤ i)
      rw [hpage, hpage] at hlt
      exact hrest earlier later key other (by rw [List.getElem?_drop, hi])
        (by rw [List.getElem?_drop, hj]) (by omega)

/-- Every key is handled exactly when no key takes out a key of a later page. -/
theorem sweep_eq_iff (hsize : 0 < size) :
    sweep size hits keys = keys ↔ Undisturbed size hits keys := by
  induction keys using sweep_induction hits hsize with
  | hnil =>
      refine ⟨fun _ i j key other hi => ?_, fun _ => rfl⟩
      simp at hi
  | hpage keys hkeys ih =>
      rw [sweep_eq hsize, undisturbed_iff hsize, ← left_behind_eq_iff]
      constructor
      · intro h
        have hrest : sweep size hits (leftBehind size hits keys) = keys.drop size := by
          refine List.append_cancel_left (h.trans ?_)
          exact (List.take_append_drop size keys).symm
        -- Both steps only drop keys, so neither dropped one.
        have hleft : leftBehind size hits keys = keys.drop size := by
          refine left_behind_sublist.eq_of_length_le ?_
          rw [← hrest]
          exact sweep_sublist.length_le
        rw [hleft] at hrest ih
        exact ⟨hleft, ih.mp hrest⟩
      · rintro ⟨hleft, hrest⟩
        rw [hleft] at ih ⊢
        rw [ih.mpr hrest, List.take_append_drop]

/-- Keyset pagination: in a strictly sorted list, the keys behind a page are the keys beyond its
last one. -/
theorem mem_drop_iff_lt {β : Type} [LinearOrder β] {keys : List β} {cursor other : β}
    (hsorted : keys.Pairwise (· < ·)) (hcursor : (keys.take size).getLast? = some cursor) :
    other ∈ keys.drop size ↔ other ∈ keys ∧ cursor < other := by
  obtain ⟨page, hpage⟩ := List.getLast?_eq_some_iff.mp hcursor
  have hsplit : (page ++ [cursor]) ++ keys.drop size = keys := by
    rw [← hpage, List.take_append_drop]
  rw [← hsplit] at hsorted
  obtain ⟨hfirst, -, hbeyond⟩ := List.pairwise_append.mp hsorted
  constructor
  · intro hother
    refine ⟨List.mem_of_mem_drop hother, hbeyond cursor (by simp) other hother⟩
  · rintro ⟨hother, hlt⟩
    rw [← hsplit, List.mem_append] at hother
    refine hother.resolve_left fun hmem => ?_
    rcases List.mem_append.mp hmem with hmem | hmem
    · have hle := (List.pairwise_append.mp hfirst).2.2 other hmem cursor (by simp)
      exact absurd (lt_trans hlt hle) (lt_irrefl cursor)
    · rw [List.mem_singleton.mp hmem] at hlt
      exact absurd hlt (lt_irrefl cursor)

end Execution
