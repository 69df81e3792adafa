import Mathlib.Data.List.Basic

/-!
# Precedence of versions

The order of SemVer 2.0.0 on parsed versions. The three release numbers compare as numbers, a
pre-release comes before its release, and two pre-releases compare identifier by identifier. Build
metadata takes no part. `orderBy` extends an order to texts of which only some can be read.
-/

namespace Versions

open Std

/-- One identifier of a pre-release: a number, or a text that is not one. -/
inductive Identifier where
  | numeric (n : Nat)
  | text (characters : String)
  deriving DecidableEq, Repr

/-- Numbers compare as numbers, texts character by character, and a number comes before a text. -/
def Identifier.order : Identifier → Identifier → Ordering
  | numeric m, numeric n => compare m n
  | numeric _, text _ => .lt
  | text _, numeric _ => .gt
  | text s, text t => compare s t

/-- A version without its build metadata. A release has no pre-release identifiers. -/
structure Version where
  major : Nat
  minor : Nat
  patch : Nat
  prerelease : Option (List Identifier)
  deriving DecidableEq, Repr

/-- A release comes after each of its pre-releases; of two pre-releases with the same beginning,
the longer one comes later. -/
def prereleaseOrder : Option (List Identifier) → Option (List Identifier) → Ordering
  | none, none => .eq
  | none, some _ => .gt
  | some _, none => .lt
  | some xs, some ys => List.compareLex Identifier.order xs ys

namespace Version

/-- Precedence: by major, minor and patch number, then by pre-release. -/
def order (v w : Version) : Ordering :=
  (compare v.major w.major).then <| (compare v.minor w.minor).then <|
    (compare v.patch w.patch).then (prereleaseOrder v.prerelease w.prerelease)

/-- The release of three numbers. -/
def release (major minor patch : Nat) : Version := ⟨major, minor, patch, none⟩

/-- Whether a version does not come after another. -/
def le (v w : Version) : Prop := (v.order w).isLE = true

/-- Whether a version comes before another. -/
def lt (v w : Version) : Prop := v.order w = .lt

instance (v w : Version) : Decidable (v.le w) := inferInstanceAs (Decidable (_ = true))

instance (v w : Version) : Decidable (v.lt w) := inferInstanceAs (Decidable (_ = _))

end Version

/-- Whether a version is a pre-release of the release of three numbers. -/
def Version.IsPrereleaseOf (v : Version) (major minor patch : Nat) : Prop :=
  v.major = major ∧ v.minor = minor ∧ v.patch = patch ∧ v.prerelease ≠ none

instance (v : Version) (major minor patch : Nat) :
    Decidable (v.IsPrereleaseOf major minor patch) :=
  inferInstanceAs (Decidable (_ ∧ _ ∧ _ ∧ _))

/-- The sign of a comparison. -/
def sign : Ordering → Int
  | .lt => -1
  | .eq => 0
  | .gt => 1

/-- The order of values of which some can be read: those that can come first, in the order of
what is read; the others follow in an order of their own. -/
def orderBy {α β : Type} (read : α → Option β) (known : β → β → Ordering)
    (other : α → α → Ordering) (a b : α) : Ordering :=
  match read a, read b with
  | some v, some w => known v w
  | some _, none => .lt
  | none, some _ => .gt
  | none, none => other a b

@[simp]
theorem sign_swap (o : Ordering) : sign o.swap = -sign o := by
  cases o <;> rfl

theorem sign_le_zero_iff (o : Ordering) : sign o ≤ 0 ↔ o.isLE = true := by
  cases o <;> decide

theorem sign_lt_zero_iff (o : Ordering) : sign o < 0 ↔ o = .lt := by
  cases o <;> decide

instance : OrientedCmp Identifier.order where
  eq_swap {x y} := by
    cases x <;> cases y <;> simp only [Identifier.order, Ordering.swap_lt, Ordering.swap_gt]
    · exact OrientedOrd.eq_swap
    · exact OrientedOrd.eq_swap

instance : TransCmp Identifier.order where
  isLE_trans {x y z} hxy hyz := by
    cases x <;> cases y <;> cases z <;> simp only [Identifier.order] at *
    all_goals first
      | exact TransOrd.isLE_trans hxy hyz
      | contradiction
      | rfl

instance : OrientedCmp prereleaseOrder where
  eq_swap {x y} := by
    cases x <;> cases y <;> simp only [prereleaseOrder, Ordering.swap_lt, Ordering.swap_gt,
      Ordering.swap_eq]
    exact OrientedCmp.eq_swap

instance : TransCmp prereleaseOrder where
  isLE_trans {x y z} hxy hyz := by
    cases x <;> cases y <;> cases z <;> simp only [prereleaseOrder] at *
    all_goals first
      | exact TransCmp.isLE_trans hxy hyz
      | contradiction
      | rfl

instance : OrientedCmp fun v w : Version => prereleaseOrder v.prerelease w.prerelease where
  eq_swap {v w} :=
    show prereleaseOrder v.prerelease w.prerelease =
      (prereleaseOrder w.prerelease v.prerelease).swap from OrientedCmp.eq_swap

instance : TransCmp fun v w : Version => prereleaseOrder v.prerelease w.prerelease where
  isLE_trans {u v w} huv hvw := by
    have huv : (prereleaseOrder u.prerelease v.prerelease).isLE = true := huv
    have hvw : (prereleaseOrder v.prerelease w.prerelease).isLE = true := hvw
    exact TransCmp.isLE_trans huv hvw

/-- Precedence is a lexicographic order. -/
theorem Version.order_eq : Version.order = compareLex (compareOn Version.major)
    (compareLex (compareOn Version.minor) (compareLex (compareOn Version.patch)
      fun v w => prereleaseOrder v.prerelease w.prerelease)) := rfl

instance : OrientedCmp Version.order := by
  rw [Version.order_eq]
  infer_instance

instance : TransCmp Version.order := by
  rw [Version.order_eq]
  infer_instance

namespace Version

variable {v w : Version} {major minor : Nat}

/-- A version does not come after another exactly if the other does not come before it. -/
theorem le_iff_not_lt : v.le w ↔ ¬ w.lt v := by
  have hswap : v.order w = (w.order v).swap := OrientedCmp.eq_swap
  rw [le, lt, hswap]
  cases w.order v <;> decide

theorem lt_iff : v.lt w ↔ v.major < w.major ∨ v.major = w.major ∧ (v.minor < w.minor ∨
    v.minor = w.minor ∧ (v.patch < w.patch ∨
      v.patch = w.patch ∧ prereleaseOrder v.prerelease w.prerelease = .lt)) := by
  simp only [lt, order, Ordering.then_eq_lt, Nat.compare_eq_lt, Nat.compare_eq_eq]

theorem prerelease_lt_release (ids : Option (List Identifier)) :
    prereleaseOrder ids none = .lt ↔ ids ≠ none := by
  cases ids <;> simp [prereleaseOrder]

/-- What comes before the first patch of two numbers: the versions of lower ones, and its own
pre-releases. -/
theorem lt_release_iff : v.lt (release major minor 0) ↔
    v.major < major ∨ v.major = major ∧ v.minor < minor ∨ v.IsPrereleaseOf major minor 0 := by
  simp only [lt_iff, release, IsPrereleaseOf, prerelease_lt_release]
  by_cases hpre : v.prerelease = none <;> simp only [hpre, ne_eq, not_true, not_false_iff, and_false,
    and_true, or_false] <;> omega

end Version

section

variable {α β : Type} {read : α → Option β} {known : β → β → Ordering} {other : α → α → Ordering}

instance [OrientedCmp known] [OrientedCmp other] : OrientedCmp (orderBy read known other) where
  eq_swap {a b} := by
    unfold orderBy
    cases read a <;> cases read b <;> simp only [Ordering.swap_lt, Ordering.swap_gt]
    · exact OrientedCmp.eq_swap
    · exact OrientedCmp.eq_swap

instance [TransCmp known] [TransCmp other] : TransCmp (orderBy read known other) where
  isLE_trans {a b c} hab hbc := by
    cases ha : read a <;> cases hb : read b <;> cases hc : read c <;>
      simp only [orderBy, ha, hb, hc] at *
    all_goals first
      | exact TransCmp.isLE_trans hab hbc
      | contradiction
      | rfl

end

end Versions
