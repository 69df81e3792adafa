import Mathlib.Data.List.Dedup
import Mathlib.Data.List.Flatten
import Mathlib.Data.List.Sort

/-!
# Groups and their order

Items grouped by a key, one outcome for each group, and what of it depends on the order the items
came in. Read `collate_perm` first: when no outcome of a group depends on the order of its members,
neither does the collation, but for the order of its results. A sort has one result for each set
of items that its order tells apart.
-/

namespace Relational

variable {α β κ ε : Type}

/-- A total preorder, as `sorted` needs one. -/
structure Preordered (r : α → α → Prop) : Prop where
  total : ∀ x y, r x y ∨ r y x
  trans : ∀ x y z, r x y → r y z → r x z

theorem texts_preordered : Preordered fun a b : String => a ≤ b :=
  ⟨String.le_total, fun _ _ _ => String.le_trans⟩

/-- Numbers from the highest down. -/
theorem ranks_preordered : Preordered fun a b : Nat => b ≤ a :=
  ⟨fun a b => Nat.le_total b a, fun _ _ _ hab hbc => hbc.trans hab⟩

/-- Comparing by a first key, and by a second order where the keys agree. -/
theorem Preordered.byKey [DecidableEq κ] {le : κ → κ → Prop} {s : α → α → Prop} (f : α → κ)
    (hle : Preordered le) (hanti : ∀ a b, le a b → le b a → a = b) (hs : Preordered s) :
    Preordered fun a b => if f a ≠ f b then le (f a) (f b) else s a b := by
  refine ⟨fun x y => ?_, fun x y z hxy hyz => ?_⟩
  · by_cases h : f x = f y
    · simpa [h] using hs.total x y
    · simpa [h, Ne.symm h] using hle.total (f x) (f y)
  · by_cases hx : f x = f y
    · by_cases hy : f y = f z
      · simp only [hx, hy, ne_eq, not_true_eq_false, if_false] at hxy hyz ⊢
        exact hs.trans x y z hxy hyz
      · simpa [hx, hy] using hyz
    · by_cases hy : f y = f z
      · simpa [← hy, hx] using hxy
      · simp only [hx, hy, ne_eq, not_false_eq_true, if_true] at hxy hyz
        have hxz := hle.trans _ _ _ hxy hyz
        split
        · exact hxz
        · rename_i hsame
          have heq : f x = f z := not_not.mp hsame
          exact absurd (hanti _ _ hxy (heq ▸ hyz)) hx

/-- Comparing images. -/
theorem Preordered.comap {r : β → β → Prop} (hr : Preordered r) (f : α → β) :
    Preordered fun a b => r (f a) (f b) :=
  ⟨fun x y => hr.total (f x) (f y), fun x y z => hr.trans (f x) (f y) (f z)⟩

/-- Two items that come before each other agree on the first key. -/
theorem byKey_antisymm [DecidableEq κ] {le : κ → κ → Prop} (f : α → κ)
    (hanti : ∀ a b, le a b → le b a → a = b) {a b : α} {P Q : Prop}
    (hab : if f a ≠ f b then le (f a) (f b) else P)
    (hba : if f b ≠ f a then le (f b) (f a) else Q) : f a = f b ∧ P ∧ Q := by
  by_cases h : f a = f b
  · rw [if_neg (not_not.mpr h)] at hab
    rw [if_neg (not_not.mpr h.symm)] at hba
    exact ⟨h, hab, hba⟩
  · rw [if_pos h] at hab
    rw [if_pos (Ne.symm h)] at hba
    exact absurd (hanti _ _ hab hba) h

section Sorting

variable {r : α → α → Prop} [DecidableRel r] {a b : List α} {x : α}

theorem sort_pairwise (hr : Preordered r) (a : List α) : (a.insertionSort r).Pairwise r := by
  have : Std.Total r := ⟨hr.total⟩
  have : IsTrans α r := ⟨hr.trans⟩
  exact List.pairwise_insertionSort r a

/-- A sort does not see the order of items that its order tells apart. -/
theorem sort_eq_of_perm (hr : Preordered r) (hanti : ∀ x ∈ a, ∀ y ∈ a, r x y → r y x → x = y)
    (hperm : a.Perm b) : a.insertionSort r = b.insertionSort r := by
  refine List.Perm.eq_of_pairwise (fun x y hx hy => ?_) (sort_pairwise hr a) (sort_pairwise hr b)
    (((List.perm_insertionSort r a).trans hperm).trans (List.perm_insertionSort r b).symm)
  have hxa := (List.mem_insertionSort r).mp hx
  have hya := hperm.mem_iff.mpr ((List.mem_insertionSort r).mp hy)
  exact hanti x hxa y hya

/-- The sorted set of a list does not see the order or the number of its items. -/
theorem sorted_set_eq [DecidableEq α] (hr : Preordered r)
    (hanti : ∀ x ∈ a, ∀ y ∈ a, r x y → r y x → x = y) (h : ∀ x, x ∈ a ↔ x ∈ b) :
    a.dedup.insertionSort r = b.dedup.insertionSort r := by
  refine sort_eq_of_perm hr (fun x hx y hy => ?_) ?_
  · exact hanti x (List.mem_dedup.mp hx) y (List.mem_dedup.mp hy)
  · exact (List.perm_ext_iff_of_nodup (List.nodup_dedup a) (List.nodup_dedup b)).mpr fun x => by
      rw [List.mem_dedup, List.mem_dedup, h]

/-- The first of a sorted list comes before each of the others. -/
theorem sort_head_le (hr : Preordered r) {rest : List α} (h : a.insertionSort r = x :: rest) :
    x ∈ a ∧ ∀ y ∈ a, r x y := by
  have hmem : ∀ {y}, y ∈ a ↔ y ∈ x :: rest := fun {y} => by
    rw [← h, List.mem_insertionSort]
  have hsorted := sort_pairwise hr a
  rw [h] at hsorted
  refine ⟨hmem.mpr List.mem_cons_self, fun y hy => ?_⟩
  rcases List.mem_cons.mp (hmem.mp hy) with rfl | hy
  · exact (hr.total y y).elim id id
  · exact (List.pairwise_cons.mp hsorted).1 y hy

end Sorting

section Collation

variable [DecidableEq κ] (key : α → κ) (settle : κ → List α → Except ε (List β))

/-- The results of the groups of the keys, one group after another. -/
def collate (items : List α) : List κ → Except ε (List β)
  | [] => .ok []
  | k :: keys => do
      let group ← settle k (items.filter (key · = k))
      let rest ← collate items keys
      .ok (group ++ rest)

/-- The results of one group, none if it failed. -/
def settled (items : List α) (k : κ) : List β :=
  (settle k (items.filter (key · = k))).toOption.getD []

variable {key settle} {items others : List α} {keys lasting : List κ} {out : List β} {k : κ}

/-- A collation succeeds exactly when each group does, with the results of the groups. -/
theorem collate_eq_ok_iff : collate key settle items keys = .ok out ↔
    (∀ k ∈ keys, ∃ group, settle k (items.filter (key · = k)) = .ok group) ∧
      out = keys.flatMap (settled key settle items) := by
  induction keys generalizing out with
  | nil =>
      rw [collate]
      constructor
      · rintro ⟨⟩
        exact ⟨by simp, rfl⟩
      · rintro ⟨-, rfl⟩
        rfl
  | cons k keys ih =>
      rw [collate, List.flatMap_cons]
      cases hgroup : settle k (items.filter (key · = k)) with
      | error failure =>
          refine iff_of_false (fun h => nomatch h) fun h => ?_
          obtain ⟨group, hok⟩ := h.1 k List.mem_cons_self
          rw [hgroup] at hok
          cases hok
      | ok group =>
          have hsettled : settled key settle items k = group := by rw [settled, hgroup]; rfl
          rw [hsettled]
          cases hrest : collate key settle items keys with
          | error failure =>
              refine iff_of_false (fun h => nomatch h) fun h => ?_
              have hok := ih.mpr ⟨fun k hk => h.1 k (List.mem_cons_of_mem _ hk), rfl⟩
              rw [hrest] at hok
              cases hok
          | ok rest =>
              obtain ⟨hall, hout⟩ := ih.mp hrest
              constructor
              · intro h
                cases h
                refine ⟨fun k' hk' => ?_, by rw [hout]⟩
                rcases List.mem_cons.mp hk' with rfl | hk'
                · exact ⟨group, hgroup⟩
                · exact hall k' hk'
              · rintro ⟨-, rfl⟩
                rw [hout]
                rfl

/-- What a collation returns comes from the group of one of the keys. -/
theorem mem_collate {y : β} (h : collate key settle items keys = .ok out) :
    y ∈ out ↔ ∃ k ∈ keys, ∃ group, settle k (items.filter (key · = k)) = .ok group ∧ y ∈ group := by
  obtain ⟨hall, rfl⟩ := collate_eq_ok_iff.mp h
  rw [List.mem_flatMap]
  refine exists_congr fun k => and_congr_right fun hk => ?_
  obtain ⟨group, hgroup⟩ := hall k hk
  simp [settled, hgroup, Except.toOption]

theorem collate_congr (h : ∀ k ∈ keys, settle k (items.filter (key · = k)) =
    settle k (others.filter (key · = k))) :
    collate key settle items keys = collate key settle others keys := by
  induction keys with
  | nil => rfl
  | cons k keys ih =>
      rw [collate, collate, h k List.mem_cons_self, ih fun k hk => h k (List.mem_cons_of_mem _ hk)]

/-- When no group sees the order of its members, neither does the collation. -/
theorem collate_perm (hkeys : keys.Perm lasting)
    (hgroups : ∀ k ∈ keys, settle k (items.filter (key · = k)) =
      settle k (others.filter (key · = k)))
    (h : collate key settle items keys = .ok out) :
    ∃ again, collate key settle others lasting = .ok again ∧ out.Perm again := by
  obtain ⟨hall, rfl⟩ := collate_eq_ok_iff.mp h
  refine ⟨_, collate_eq_ok_iff.mpr ⟨fun k hk => ?_, rfl⟩, ?_⟩
  · have hin := hkeys.mem_iff.mpr hk
    rw [← hgroups k hin]
    exact hall k hin
  · have hsame : keys.flatMap (settled key settle items) =
        keys.flatMap (settled key settle others) :=
      List.flatMap_congr fun k hk => by rw [settled, settled, hgroups k hk]
    rw [hsame]
    exact hkeys.flatMap_right _

/-- A collation with one result for each group has one result for each key. -/
theorem collate_map {γ : Type} {label : β → γ} {name : κ → γ}
    (hgroups : ∀ k ∈ keys, ∀ group, settle k (items.filter (key · = k)) = .ok group →
      group.map label = [name k])
    (h : collate key settle items keys = .ok out) : out.map label = keys.map name := by
  obtain ⟨hall, rfl⟩ := collate_eq_ok_iff.mp h
  rw [List.map_flatMap, List.map_eq_flatMap]
  refine List.flatMap_congr fun k hk => ?_
  obtain ⟨group, hgroup⟩ := hall k hk
  rw [← hgroups k hk group hgroup, settled, hgroup]
  rfl

end Collation

end Relational
