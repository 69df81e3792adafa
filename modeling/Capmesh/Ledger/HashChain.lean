import Mathlib.Data.List.Induction
import Mathlib.Data.List.Nodup

/-!
# Hash chains

A chain is a list of entries, each sealed on its own and naming the digest of the entry before it.
`linked_append` is the rule for chains that grow at the end. The two results about chains that
were tampered with take the digests of each list to be distinct: `linked_sublist_iff` says that
what is left of a chain after deletions is a chain exactly when it is a prefix, and
`linked_replaced_iff` says which replacements of one entry leave a chain.
-/

namespace Ledger

/-- How an entry is read: its digest, the digest it names as the one before it, and whether it
vouches for its own content. -/
structure Format (ε δ : Type) where
  digest : ε → δ
  previous : ε → Option δ
  Sealed : ε → Prop

namespace Format

variable {ε δ : Type} (F : Format ε δ)

/-- Every entry is sealed, and names the digest of the one before it. -/
def Linked : Option δ → List ε → Prop
  | _, [] => True
  | prev, entry :: entries =>
      F.previous entry = prev ∧ F.Sealed entry ∧ Linked (some (F.digest entry)) entries

/-- The digest that the next entry has to name. -/
def tip : Option δ → List ε → Option δ
  | prev, [] => prev
  | _, entry :: entries => tip (some (F.digest entry)) entries

variable {F} {prev : Option δ} {entry old new : ε} {entries first rest before after kept : List ε}

@[simp] theorem tip_nil : F.tip prev [] = prev := rfl

@[simp] theorem tip_concat : F.tip prev (entries ++ [entry]) = some (F.digest entry) := by
  induction entries generalizing prev with
  | nil => rfl
  | cons next entries ih => exact ih

theorem tip_cases (prev : Option δ) (entries : List ε) :
    (entries = [] ∧ F.tip prev entries = prev) ∨
      ∃ entry ∈ entries, F.tip prev entries = some (F.digest entry) := by
  cases entries using List.reverseRecOn with
  | nil => exact .inl ⟨rfl, rfl⟩
  | append_singleton entries last => exact .inr ⟨last, by simp, tip_concat⟩

theorem linked_append :
    F.Linked prev (first ++ rest) ↔ F.Linked prev first ∧ F.Linked (F.tip prev first) rest := by
  induction first generalizing prev with
  | nil => simp [Linked]
  | cons entry first ih =>
      rw [List.cons_append, Linked, Linked, ih, tip]
      simp only [and_assoc]

theorem linked_concat :
    F.Linked prev (entries ++ [entry]) ↔
      F.Linked prev entries ∧ F.previous entry = F.tip prev entries ∧ F.Sealed entry := by
  rw [linked_append]
  simp [Linked]

theorem linked_cons_concat :
    F.Linked prev (first ++ entry :: rest) ↔
      F.Linked prev first ∧ F.previous entry = F.tip prev first ∧ F.Sealed entry ∧
        F.Linked (some (F.digest entry)) rest := by
  rw [linked_append, Linked]

/-- An entry of a chain names the digest from before, or that of another entry. -/
theorem Linked.previous_cases (h : F.Linked prev entries) (hentry : entry ∈ entries) :
    F.previous entry = prev ∨ ∃ other ∈ entries, F.previous entry = some (F.digest other) := by
  obtain ⟨first, rest, rfl⟩ := List.append_of_mem hentry
  have hprevious := (linked_cons_concat.mp h).2.1
  rcases tip_cases (F := F) prev first with ⟨-, htip⟩ | ⟨other, hother, htip⟩
  · exact .inl (hprevious.trans htip)
  · exact .inr ⟨other, List.mem_append_left _ hother, hprevious.trans htip⟩

theorem Linked.of_prefix (h : F.Linked prev entries) (hcut : kept <+: entries) :
    F.Linked prev kept := by
  obtain ⟨gone, rfl⟩ := hcut
  exact (linked_append.mp h).1

/-- What deletions leave of a chain names no digest that is gone only when it is a prefix. -/
theorem Linked.prefix_of_sublist (h : F.Linked prev entries)
    (hnodup : (entries.map F.digest).Nodup) (hfresh : ∀ e ∈ entries, some (F.digest e) ≠ prev)
    (hkept : kept.Sublist entries) (hlinked : F.Linked prev kept) : kept <+: entries := by
  induction hkept generalizing prev with
  | slnil => exact List.nil_prefix
  | @cons kept entries entry hsub ih =>
      cases kept with
      | nil => exact List.nil_prefix
      | cons k kept =>
          -- the first one kept names what comes before `entry`, and not `entry`
          exfalso
          have hprevious : F.previous k = prev := hlinked.1
          rcases h.2.2.previous_cases (hsub.subset List.mem_cons_self) with hk | ⟨e, he, hk⟩
          · exact hfresh entry List.mem_cons_self (hk.symm.trans hprevious)
          · exact hfresh e (List.mem_cons_of_mem _ he) (hk.symm.trans hprevious)
  | @cons_cons kept entries entry hsub ih =>
      rw [List.map_cons, List.nodup_cons] at hnodup
      refine List.cons_prefix_cons.mpr ⟨rfl, ih h.2.2 hnodup.2 (fun e he heq => ?_) hlinked.2.2⟩
      exact hnodup.1 (Option.some.inj heq ▸ List.mem_map_of_mem he)

/-- What deletions leave of a chain is a chain exactly when they cut off its end. -/
theorem linked_sublist_iff (h : F.Linked none entries) (hnodup : (entries.map F.digest).Nodup)
    (hkept : kept.Sublist entries) : F.Linked none kept ↔ kept <+: entries :=
  ⟨h.prefix_of_sublist hnodup (fun _ _ => Option.some_ne_none _) hkept, h.of_prefix⟩

/-- Selecting from a list cuts off its end exactly when nothing is kept behind what goes. -/
theorem filter_prefix_iff (keep : ε → Bool) (entries : List ε) :
    entries.filter keep <+: entries ↔ entries.Pairwise fun a b => keep b = true → keep a = true := by
  induction entries with
  | nil => exact ⟨fun _ => .nil, fun _ => List.nil_prefix⟩
  | cons entry entries ih =>
      rw [List.pairwise_cons]
      by_cases hentry : keep entry = true
      · rw [List.filter_cons_of_pos hentry, List.prefix_cons_inj, ih]
        exact ⟨fun h => ⟨fun _ _ _ => hentry, h⟩, fun h => h.2⟩
      · rw [List.filter_cons_of_neg hentry]
        constructor
        · intro hcut
          have hnone : entries.filter keep = [] := by
            cases hkept : entries.filter keep with
            | nil => rfl
            | cons kept rest =>
                rw [hkept, List.cons_prefix_cons] at hcut
                have hmem : kept ∈ entries.filter keep := hkept ▸ List.mem_cons_self
                exact absurd (hcut.1 ▸ (List.mem_filter.mp hmem).2) hentry
          rw [List.filter_eq_nil_iff] at hnone
          exact ⟨fun b hb hkeep => absurd hkeep (hnone b hb),
            List.pairwise_of_forall_mem_list fun a _ b hb hkeep => absurd hkeep (hnone b hb)⟩
        · rintro ⟨hfirst, -⟩
          rw [List.filter_eq_nil_iff.mpr fun b hb hkeep => hentry (hfirst b hb hkeep)]
          exact List.nil_prefix

/-- The digests of the two entries around a gap are apart, so an entry cannot be named at a gap that
is not its own. -/
theorem tip_ne_digest (hnodup : ((first ++ entry :: rest).map F.digest).Nodup) :
    F.tip none first ≠ some (F.digest entry) := by
  rcases tip_cases (F := F) none first with ⟨-, htip⟩ | ⟨other, hother, htip⟩
  · rw [htip]
    exact (Option.some_ne_none _).symm
  · rw [htip]
    intro heq
    rw [List.map_append, List.nodup_append] at hnodup
    exact hnodup.2.2 _ (List.mem_map_of_mem hother) _ List.mem_cons_self (Option.some.inj heq)

/-- Putting one entry of a chain in place of another, wherever it comes to stand among the others,
leaves a chain exactly when it stands in the same place, names the same digest, is sealed, and has
the same digest unless it is the last one. -/
theorem linked_replaced_iff (h : F.Linked none (first ++ old :: rest))
    (hold : ((first ++ old :: rest).map F.digest).Nodup) (hothers : before ++ after = first ++ rest)
    (hnew : ((before ++ new :: after).map F.digest).Nodup) :
    F.Linked none (before ++ new :: after) ↔
      before = first ∧ F.previous new = F.previous old ∧ F.Sealed new ∧
        (rest = [] ∨ F.digest new = F.digest old) := by
  obtain ⟨hfirst, hprevious, hsealed, hrest⟩ := linked_cons_concat.mp h
  constructor
  · intro hlinked
    obtain ⟨hbefore, hpreviousNew, hsealedNew, hafter⟩ := linked_cons_concat.mp hlinked
    rcases List.append_eq_append_iff.mp hothers with ⟨mid, hmid, hafterEq⟩ | ⟨mid, hmid, hrestEq⟩
    · cases mid with
      | nil =>
          rw [List.append_nil] at hmid
          subst hmid
          rw [List.nil_append] at hafterEq
          subst hafterEq
          refine ⟨rfl, hpreviousNew.trans hprevious.symm, hsealedNew, ?_⟩
          cases after with
          | nil => exact .inl rfl
          | cons next after => exact .inr (Option.some.inj (hafter.1.symm.trans hrest.1))
      | cons next mid =>
          -- `new` stands further in front: the entry after it named what was there before
          subst hmid
          exfalso
          rw [hafterEq] at hafter
          have hnext : F.previous next = F.tip none before := (linked_cons_concat.mp hfirst).2.1
          exact tip_ne_digest hnew (hnext.symm.trans hafter.1)
    · cases mid with
      | nil =>
          rw [List.append_nil] at hmid
          subst hmid
          rw [List.nil_append] at hrestEq
          subst hrestEq
          refine ⟨rfl, hpreviousNew.trans hprevious.symm, hsealedNew, ?_⟩
          cases rest with
          | nil => exact .inl rfl
          | cons next rest => exact .inr (Option.some.inj (hafter.1.symm.trans hrest.1))
      | cons next mid =>
          -- `new` stands further back: the entry after the gap still names `old`
          subst hmid
          exfalso
          rw [hrestEq] at hrest
          have hnext : F.previous next = F.tip none first := (linked_cons_concat.mp hbefore).2.1
          exact tip_ne_digest hold (hnext.symm.trans hrest.1)
  · rintro ⟨rfl, hsame, hsealedNew, hlast⟩
    have hafter : after = rest := List.append_cancel_left hothers
    subst hafter
    refine linked_cons_concat.mpr ⟨hfirst, hsame.trans hprevious, hsealedNew, ?_⟩
    rcases hlast with rfl | hdigest
    · trivial
    · rwa [hdigest]

end Format

end Ledger
