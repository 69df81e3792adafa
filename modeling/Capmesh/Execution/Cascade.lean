import Mathlib.Data.List.Forall2

/-!
# Ordered decision rules

A cascade is a list of rules tried in order: the first rule that applies decides, and
a request no rule applies to is refused. `verdict_allowed_iff` reads a cascade that
tries every refusal before every grant: it allows a request exactly when no refusal
and some grant applies to it. The order of the refusals among themselves, and of the
grants, does not matter for the answer. `exists_applies_mono` compares two cascades rule
by rule.
-/

namespace Execution

/-- One rule of a cascade: whether it applies, what it answers, and why. -/
structure Rule where
  applies : Bool
  allows : Bool
  reason : String
  deriving DecidableEq, Repr

namespace Rule

/-- The answer of the first rule that applies. -/
def verdict (default : String) : List Rule → Bool × String
  | [] => (false, default)
  | rule :: rules => if rule.applies then (rule.allows, rule.reason) else verdict default rules

/-- Rules that do not apply leave the decision to the rest. -/
theorem verdict_append {default : String} {first : List Rule} (rest : List Rule)
    (h : ∀ rule ∈ first, rule.applies = false) :
    verdict default (first ++ rest) = verdict default rest := by
  induction first with
  | nil => rfl
  | cons rule first ih =>
      have hrule := h rule List.mem_cons_self
      have hfirst := fun other hother => h other (List.mem_cons_of_mem rule hother)
      simp only [List.cons_append, verdict, hrule, Bool.false_eq_true, if_false]
      exact ih hfirst

theorem verdict_of_applies {default : String} {rules rest : List Rule} {answer : Bool}
    (hanswer : ∀ rule ∈ rules, rule.allows = answer) (h : ∃ rule ∈ rules, rule.applies = true) :
    (verdict default (rules ++ rest)).1 = answer := by
  induction rules with
  | nil =>
      obtain ⟨rule, hrule, -⟩ := h
      cases hrule
  | cons rule rules ih =>
      simp only [List.cons_append, verdict]
      split
      · exact hanswer rule List.mem_cons_self
      · rename_i hrule
        refine ih (fun other hother => hanswer other (List.mem_cons_of_mem rule hother)) ?_
        obtain ⟨other, hother, happlies⟩ := h
        rcases List.mem_cons.mp hother with rfl | hother
        · exact absurd happlies hrule
        · exact ⟨other, hother, happlies⟩

/-- A cascade that tries every refusal first allows a request exactly when no refusal and some
grant applies. -/
theorem verdict_allowed_iff {default : String} {refusals grants : List Rule}
    (hrefusals : ∀ rule ∈ refusals, rule.allows = false)
    (hgrants : ∀ rule ∈ grants, rule.allows = true) :
    (verdict default (refusals ++ grants)).1 = true ↔
      (∀ rule ∈ refusals, rule.applies = false) ∧ ∃ rule ∈ grants, rule.applies = true := by
  by_cases hrefused : ∃ rule ∈ refusals, rule.applies = true
  · rw [verdict_of_applies hrefusals hrefused]
    obtain ⟨rule, hrule, happlies⟩ := hrefused
    constructor
    · intro h
      cases h
    · intro h
      rw [h.1 rule hrule] at happlies
      cases happlies
  · have hnone : ∀ rule ∈ refusals, rule.applies = false := by
      intro rule hrule
      by_contra happlies
      exact hrefused ⟨rule, hrule, by simpa using happlies⟩
    rw [verdict_append grants hnone]
    constructor
    · intro h
      refine ⟨hnone, ?_⟩
      by_contra hgranted
      have hdefault : verdict default (grants ++ []) = verdict default [] := by
        refine verdict_append [] fun rule hrule => ?_
        by_contra happlies
        exact hgranted ⟨rule, hrule, by simpa using happlies⟩
      rw [List.append_nil] at hdefault
      rw [hdefault] at h
      cases h
    · intro h
      have hallowed : (verdict default (grants ++ [])).1 = true := verdict_of_applies hgrants h.2
      rwa [List.append_nil] at hallowed

/-- If each rule of a list applies only when the rule at its place in another one does or `q` holds,
then a rule of the first list applies only when one of the other does or `q` holds. -/
theorem exists_applies_or {rules others : List Rule} {q : Prop}
    (h : List.Forall₂ (fun rule other => rule.applies = true → other.applies = true ∨ q)
      rules others)
    (hrules : ∃ rule ∈ rules, rule.applies = true) :
    (∃ rule ∈ others, rule.applies = true) ∨ q := by
  induction h with
  | nil => exact .inl hrules
  | @cons rule other rules others hhead _ ih =>
      obtain ⟨first, hfirst, happlies⟩ := hrules
      rcases List.mem_cons.mp hfirst with rfl | hfirst
      · exact (hhead happlies).imp_left fun hother => ⟨other, List.mem_cons_self, hother⟩
      · refine (ih ⟨first, hfirst, happlies⟩).imp_left ?_
        rintro ⟨last, hlast, happlies⟩
        exact ⟨last, List.mem_cons_of_mem other hlast, happlies⟩

/-- If each rule of a list applies whenever the rule at its place in another one does, the list has
a rule that applies whenever the other has. -/
theorem exists_applies_mono {rules others : List Rule}
    (h : List.Forall₂ (fun rule other => rule.applies = true → other.applies = true) rules others)
    (hrules : ∃ rule ∈ rules, rule.applies = true) : ∃ rule ∈ others, rule.applies = true := by
  have hor : List.Forall₂ (fun rule other => rule.applies = true → other.applies = true ∨ False)
      rules others := h.imp fun _ _ hrule happlies => .inl (hrule happlies)
  exact (exists_applies_or hor hrules).resolve_right id

end Rule

end Execution
