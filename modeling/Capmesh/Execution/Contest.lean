import Mathlib.Data.List.MinMax
import Mathlib.Data.List.Sort

/-!
# Admission by contest

Items are admitted one by one, each judged against those admitted before it. An item stands against
another with the same key when it is a source with a different root and no lower rank; the first
one that stands against a newcomer drops it when it ranks higher, and refuses the whole batch when
it does not. `fair_iff` says exactly when the order of a batch makes no difference and no two sources
of one key are admitted from different roots.
-/

namespace Execution

/-- What happens to one item. -/
inductive Admission where
  | admitted | dropped | refused
  deriving DecidableEq, Repr

/-- A first verdict stands unless it admits. -/
def Admission.orThen : Admission → Admission → Admission
  | .admitted, second => second
  | first, _ => first

/-- What a contest reads of an item. -/
structure Contest (α κ ρ : Type) where
  key : α → κ
  root : α → ρ
  isSource : α → Bool
  rank : α → Nat

namespace Contest

variable {α κ ρ : Type} [DecidableEq κ] [DecidableEq ρ] (C : Contest α κ ρ)

/-- One item stands against another. -/
def Rivals (x y : α) : Prop :=
  C.key x = C.key y ∧ C.isSource x = true ∧ C.root x ≠ C.root y ∧ C.rank y ≤ C.rank x

instance (x y : α) : Decidable (C.Rivals x y) := inferInstanceAs (Decidable (_ ∧ _ ∧ _ ∧ _))

/-- The judgement of an item against those admitted before it. -/
def judge (seen : List α) (y : α) : Admission :=
  match seen.find? fun x => C.Rivals x y with
  | none => .admitted
  | some x => if C.rank y < C.rank x then .dropped else .refused

/-- Admit the items in their order; `before` judges an item against what does not change. -/
def admitAll (before : α → Admission) : List α → List α → Option (List α)
  | seen, [] => some seen
  | seen, y :: ys =>
      match before y with
      | .refused => none
      | .dropped => admitAll before seen ys
      | .admitted =>
          match C.judge seen y with
          | .refused => none
          | .dropped => admitAll before seen ys
          | .admitted => admitAll before (seen ++ [y]) ys

/-- An item that only the other items can keep out. -/
def Contends (before : α → Admission) (batch : List α) (x : α) : Prop :=
  x ∈ batch ∧ before x = .admitted

/-- The order makes no difference: every order is refused, or every order admits the same items. -/
def OrderIndependent (before : α → Admission) (batch : List α) : Prop :=
  (∀ order : List α, order.Perm batch → C.admitAll before [] order = none) ∨
    ∃ kept : α → Prop, ∀ order : List α, order.Perm batch →
      ∃ out, C.admitAll before [] order = some out ∧ ∀ x, x ∈ out ↔ kept x

/-- No two sources of one key are admitted from different roots. -/
def OneRoot (before : α → Admission) (batch : List α) : Prop :=
  ∀ order out : List α, order.Perm batch → C.admitAll before [] order = some out →
    ∀ x ∈ out, ∀ y ∈ out, C.key x = C.key y → C.isSource x = true → C.isSource y = true →
      C.root x = C.root y

/-- Two sources from different roots share the highest rank of their key. -/
def Tied (before : α → Admission) (batch : List α) : Prop :=
  ∃ x y, Contends before batch x ∧ Contends before batch y ∧ C.Rivals x y ∧ C.Rivals y x ∧
    ∀ z, Contends before batch z → C.isSource z = true → C.key z = C.key x → C.rank z ≤ C.rank x

/-- Nobody stands against anybody. -/
def Unrivalled (before : α → Admission) (batch : List α) : Prop :=
  ∀ x y, Contends before batch x → Contends before batch y → ¬ C.Rivals x y

variable {C} {before : α → Admission} {batch order seen out done todo : List α} {x y : α}

omit [DecidableEq κ] [DecidableEq ρ] in
/-- Two sources with different roots: one stands against the other. -/
theorem rivals_total (hkey : C.key x = C.key y) (hx : C.isSource x = true)
    (hy : C.isSource y = true) (hroot : C.root x ≠ C.root y) : C.Rivals x y ∨ C.Rivals y x := by
  rcases Nat.le_total (C.rank y) (C.rank x) with hle | hle
  · exact .inl ⟨hkey, hx, hroot, hle⟩
  · exact .inr ⟨hkey.symm, hy, hroot.symm, hle⟩

theorem judge_eq_admitted_iff : C.judge seen y = .admitted ↔ ∀ x ∈ seen, ¬ C.Rivals x y := by
  unfold judge
  cases hfind : seen.find? fun x => C.Rivals x y with
  | none => simpa using List.find?_eq_none.mp hfind
  | some x =>
      have hrival : C.Rivals x y := by simpa using List.find?_some hfind
      have hmem := List.mem_of_find?_eq_some hfind
      refine iff_of_false ?_ fun hnone => hnone x hmem hrival
      dsimp only
      split <;> simp

theorem judge_append (first seen : List α) (y : α) :
    C.judge (first ++ seen) y = (C.judge first y).orThen (C.judge seen y) := by
  unfold judge
  rw [List.find?_append]
  cases first.find? fun x => C.Rivals x y with
  | none => rfl
  | some x =>
      show (if C.rank y < C.rank x then Admission.dropped else .refused) = _
      dsimp only
      split <;> rfl

theorem judge_cons_of_not (h : ¬ C.Rivals x y) : C.judge (x :: seen) y = C.judge seen y := by
  unfold judge
  rw [List.find?_cons_of_neg (by simpa using h)]

theorem judge_cons_of_rivals (h : C.Rivals x y) :
    C.judge (x :: seen) y = if C.rank y < C.rank x then .dropped else .refused := by
  unfold judge
  rw [List.find?_cons_of_pos (by simpa using h)]

theorem judge_dropped (h : C.judge seen y = .dropped) :
    ∃ x ∈ seen, C.Rivals x y ∧ C.rank y < C.rank x := by
  unfold judge at h
  cases hfind : seen.find? fun x => C.Rivals x y with
  | none =>
      rw [hfind] at h
      cases h
  | some x =>
      rw [hfind] at h
      dsimp only at h
      split at h
      · rename_i hlt
        exact ⟨x, List.mem_of_find?_eq_some hfind, by simpa using List.find?_some hfind, hlt⟩
      · cases h

/-- An item is refused for the first one that stands against it, of the same rank. -/
theorem judge_refused (h : C.judge seen y = .refused) :
    ∃ first x rest, seen = first ++ x :: rest ∧ C.Rivals x y ∧ C.rank x = C.rank y ∧
      ∀ z ∈ first, ¬ C.Rivals z y := by
  unfold judge at h
  cases hfind : seen.find? fun x => C.Rivals x y with
  | none =>
      rw [hfind] at h
      cases h
  | some x =>
      rw [hfind] at h
      dsimp only at h
      obtain ⟨hrival, first, rest, hseen, hfirst⟩ := List.find?_eq_some_iff_append.mp hfind
      have hrivals : C.Rivals x y := of_decide_eq_true hrival
      split at h
      · cases h
      · rename_i hlt
        exact ⟨first, x, rest, hseen, hrivals,
          Nat.le_antisymm (Nat.le_of_not_lt hlt) hrivals.2.2.2, fun z hz => by simpa using hfirst z hz⟩

/-- The verdict on an item is the one before the contest, and then the contest's. -/
theorem admit_all_cons (seen order : List α) (y : α) :
    C.admitAll before seen (y :: order) =
      match (before y).orThen (C.judge seen y) with
      | .refused => none
      | .dropped => C.admitAll before seen order
      | .admitted => C.admitAll before (seen ++ [y]) order := by
  rw [admitAll]
  cases before y <;> rfl

theorem admit_all_append (seen done todo : List α) :
    C.admitAll before seen (done ++ todo) =
      (C.admitAll before seen done).bind fun seen => C.admitAll before seen todo := by
  induction done generalizing seen with
  | nil => rfl
  | cons y done ih =>
      rw [List.cons_append, admitAll, admitAll]
      cases before y with
      | refused => rfl
      | dropped => exact ih seen
      | admitted =>
          cases C.judge seen y with
          | refused => rfl
          | dropped => exact ih seen
          | admitted => exact ih (seen ++ [y])

/-- What is admitted joins the items seen, and nothing before it stands against it. -/
theorem admit_all_some (h : C.admitAll before seen order = some out) :
    ∃ new, out = seen ++ new ∧ new.Sublist order ∧
      (∀ y ∈ new, before y = .admitted ∧ ∀ x ∈ seen, ¬ C.Rivals x y) ∧
      new.Pairwise fun x y => ¬ C.Rivals x y := by
  induction order generalizing seen with
  | nil =>
      cases h
      exact ⟨[], (List.append_nil _).symm, .slnil, fun _ hy => absurd hy List.not_mem_nil, .nil⟩
  | cons y order ih =>
      rw [admitAll] at h
      cases hbefore : before y with
      | refused => simp [hbefore] at h
      | dropped =>
          simp only [hbefore] at h
          obtain ⟨new, hout, hsub, hnew, hpairwise⟩ := ih h
          exact ⟨new, hout, hsub.cons y, hnew, hpairwise⟩
      | admitted =>
          simp only [hbefore] at h
          cases hjudge : C.judge seen y with
          | refused => simp [hjudge] at h
          | dropped =>
              simp only [hjudge] at h
              obtain ⟨new, hout, hsub, hnew, hpairwise⟩ := ih h
              exact ⟨new, hout, hsub.cons y, hnew, hpairwise⟩
          | admitted =>
              simp only [hjudge] at h
              obtain ⟨new, hout, hsub, hnew, hpairwise⟩ := ih h
              refine ⟨y :: new, by rw [hout, List.append_assoc]; rfl, hsub.cons_cons y, ?_,
                List.pairwise_cons.mpr ⟨fun z hz => ?_, hpairwise⟩⟩
              · intro z hz
                rcases List.mem_cons.mp hz with rfl | hz
                · exact ⟨hbefore, judge_eq_admitted_iff.mp hjudge⟩
                · exact ⟨(hnew z hz).1, fun x hx => (hnew z hz).2 x (List.mem_append_left _ hx)⟩
              · exact (hnew z hz).2 y (List.mem_append_right _ List.mem_cons_self)

/-- From nothing: the items admitted contend, and nothing before one of them stands against it. -/
theorem admit_all_from_nil (h : C.admitAll before [] order = some out) :
    out.Sublist order ∧ (∀ y ∈ out, Contends before order y) ∧
      out.Pairwise fun x y => ¬ C.Rivals x y := by
  obtain ⟨new, hout, hsub, hnew, hpairwise⟩ := admit_all_some h
  rw [List.nil_append] at hout
  subst hout
  exact ⟨hsub, fun y hy => ⟨hsub.subset hy, (hnew y hy).1⟩, hpairwise⟩

theorem seen_subset (h : C.admitAll before seen order = some out) : ∀ x ∈ seen, x ∈ out := by
  obtain ⟨new, rfl, -⟩ := admit_all_some h
  exact fun x hx => List.mem_append_left _ hx

/-- A batch is refused at one of its items. -/
theorem admit_all_eq_none (h : C.admitAll before seen order = none) :
    ∃ done y todo kept, order = done ++ y :: todo ∧ C.admitAll before seen done = some kept ∧
      (before y = .refused ∨ (before y = .admitted ∧ C.judge kept y = .refused)) := by
  induction order generalizing seen with
  | nil => cases h
  | cons y order ih =>
      rw [admitAll] at h
      cases hbefore : before y with
      | refused => exact ⟨[], y, order, seen, rfl, rfl, .inl hbefore⟩
      | dropped =>
          simp only [hbefore] at h
          obtain ⟨done, z, todo, kept, rfl, hdone, hrefused⟩ := ih h
          exact ⟨y :: done, z, todo, kept, rfl, by rw [admitAll, hbefore]; exact hdone, hrefused⟩
      | admitted =>
          simp only [hbefore] at h
          cases hjudge : C.judge seen y with
          | refused => exact ⟨[], y, order, seen, rfl, rfl, .inr ⟨hbefore, hjudge⟩⟩
          | dropped =>
              simp only [hjudge] at h
              obtain ⟨done, z, todo, kept, rfl, hdone, hrefused⟩ := ih h
              exact ⟨y :: done, z, todo, kept, rfl, by
                simp only [admitAll, hbefore, hjudge]
                exact hdone, hrefused⟩
          | admitted =>
              simp only [hjudge] at h
              obtain ⟨done, z, todo, kept, rfl, hdone, hrefused⟩ := ih h
              exact ⟨y :: done, z, todo, kept, rfl, by
                simp only [admitAll, hbefore, hjudge]
                exact hdone, hrefused⟩

theorem admit_all_refused (hx : x ∈ order) (hrefused : before x = .refused) :
    C.admitAll before seen order = none := by
  obtain ⟨done, todo, rfl⟩ := List.append_of_mem hx
  rw [admit_all_append]
  cases C.admitAll before seen done with
  | none => rfl
  | some kept =>
      show C.admitAll before kept (x :: todo) = none
      rw [admitAll, hrefused]

theorem top_admitted (hx : x ∈ order) (hbefore : before x = .admitted)
    (h : C.admitAll before seen order = some out)
    (htop : ∀ z ∈ out, C.isSource z = true → C.key z = C.key x → C.rank z ≤ C.rank x) :
    x ∈ out := by
  obtain ⟨done, todo, rfl⟩ := List.append_of_mem hx
  rw [admit_all_append] at h
  obtain ⟨kept, -, hrest⟩ := Option.bind_eq_some_iff.mp h
  rw [admitAll, hbefore] at hrest
  cases hjudge : C.judge kept x with
  | refused => simp [hjudge] at hrest
  | dropped =>
      simp only [hjudge] at hrest
      obtain ⟨z, hz, hrival, hlt⟩ := judge_dropped hjudge
      have hle := htop z (seen_subset hrest z hz) hrival.2.1 hrival.1
      omega
  | admitted =>
      simp only [hjudge] at hrest
      exact seen_subset hrest x (List.mem_append_right _ List.mem_cons_self)

/-- Two sources that share the highest rank refuse every order. -/
theorem admit_all_tied (h : C.Tied before batch) (hperm : order.Perm batch) :
    C.admitAll before [] order = none := by
  obtain ⟨x, y, hx, hy, hxy, hyx, htop⟩ := h
  cases hout : C.admitAll before [] order with
  | none => rfl
  | some out =>
      exfalso
      obtain ⟨hsub, hcontends, hpairwise⟩ := admit_all_from_nil hout
      have hbelow : ∀ z ∈ out, C.isSource z = true → C.key z = C.key x → C.rank z ≤ C.rank x :=
        fun z hz => htop z ⟨hperm.subset (hcontends z hz).1, (hcontends z hz).2⟩
      have hrank : C.rank x = C.rank y := Nat.le_antisymm hyx.2.2.2 hxy.2.2.2
      have hxout := top_admitted (hperm.symm.subset hx.1) hx.2 hout hbelow
      have hyout := top_admitted (hperm.symm.subset hy.1) hy.2 hout fun z hz hsource hkey =>
        hrank ▸ hbelow z hz hsource (hkey.trans hxy.1.symm)
      have hsym : out.Pairwise fun x y => ¬ (C.Rivals x y ∧ C.Rivals y x) :=
        hpairwise.imp fun hnot hboth => hnot hboth.1
      have hflip : out.Pairwise (flip fun x y => ¬ (C.Rivals x y ∧ C.Rivals y x)) :=
        hpairwise.imp fun hnot hboth => hnot hboth.2
      exact List.Pairwise.forall_of_forall_of_flip (fun z _ hboth => hboth.1.2.2.1 rfl) hsym hflip
        hxout hyout ⟨hxy, hyx⟩

/-- Where nobody stands against anybody, each item that contends is admitted. -/
theorem admit_all_unrivalled (hnone : ∀ x ∈ order, before x ≠ .refused)
    (hfree : ∀ x ∈ seen ++ order, ∀ y ∈ order, before x = .admitted → before y = .admitted →
      ¬ C.Rivals x y)
    (hseen : ∀ x ∈ seen, before x = .admitted) :
    C.admitAll before seen order =
      some (seen ++ order.filter fun x => before x = .admitted) := by
  induction order generalizing seen with
  | nil => rw [admitAll, List.filter_nil, List.append_nil]
  | cons y order ih =>
      have hlater : ∀ x ∈ order, before x ≠ .refused :=
        fun x hx => hnone x (List.mem_cons_of_mem _ hx)
      rw [admitAll]
      cases hbefore : before y with
      | refused => exact absurd hbefore (hnone y List.mem_cons_self)
      | dropped =>
          rw [List.filter_cons_of_neg (by simp [hbefore])]
          refine ih hlater (fun x hx z hz => hfree x ?_ z (List.mem_cons_of_mem _ hz)) hseen
          rcases List.mem_append.mp hx with hx | hx
          · exact List.mem_append_left _ hx
          · exact List.mem_append_right _ (List.mem_cons_of_mem _ hx)
      | admitted =>
          have hjudge : C.judge seen y = .admitted := judge_eq_admitted_iff.mpr fun x hx =>
            hfree x (List.mem_append_left _ hx) y List.mem_cons_self (hseen x hx) hbefore
          rw [List.filter_cons_of_pos (by simp [hbefore])]
          simp only [hjudge]
          rw [ih hlater ?_ ?_, List.append_assoc]
          · rfl
          · intro x hx z hz
            refine hfree x ?_ z (List.mem_cons_of_mem _ hz)
            rwa [List.append_assoc] at hx
          · intro x hx
            rcases List.mem_append.mp hx with hx | hx
            · exact hseen x hx
            · exact List.mem_singleton.mp hx ▸ hbefore

/-- What a good order puts first: an item that is no source, then the sources by rank. -/
def Earlier (C : Contest α κ ρ) (x y : α) : Prop :=
  C.isSource x = false ∨ (C.isSource y = true ∧ C.rank y ≤ C.rank x)

omit [DecidableEq κ] [DecidableEq ρ] in
theorem earlier_total (C : Contest α κ ρ) (x y : α) : C.Earlier x y ∨ C.Earlier y x := by
  unfold Earlier
  cases C.isSource x <;> cases C.isSource y <;> simp
  exact Nat.le_total _ _

omit [DecidableEq κ] [DecidableEq ρ] in
theorem earlier_trans (C : Contest α κ ρ) (x y z : α) (hxy : C.Earlier x y)
    (hyz : C.Earlier y z) : C.Earlier x z := by
  rcases hxy with hx | ⟨hy, hle⟩
  · exact .inl hx
  · rcases hyz with hfalse | ⟨hz, hle'⟩
    · rw [hy] at hfalse
      cases hfalse
    · exact .inr ⟨hz, hle'.trans hle⟩

omit [DecidableEq κ] [DecidableEq ρ] in
theorem exists_good_order (C : Contest α κ ρ) (batch : List α) :
    ∃ order : List α, order.Perm batch ∧ order.Pairwise C.Earlier := by
  classical
  have : Std.Total C.Earlier := ⟨C.earlier_total⟩
  have : IsTrans α C.Earlier := ⟨C.earlier_trans⟩
  exact ⟨batch.insertionSort C.Earlier, List.perm_insertionSort _ batch,
    List.pairwise_insertionSort _ batch⟩

omit [DecidableEq κ] [DecidableEq ρ] in
/-- Among the sources of one key, some contender has the highest rank. -/
theorem exists_top {z : α} (hz : Contends before batch z) (hsource : C.isSource z = true) :
    ∃ top, Contends before batch top ∧ C.isSource top = true ∧ C.key top = C.key z ∧
      ∀ w, Contends before batch w → C.isSource w = true → C.key w = C.key z →
        C.rank w ≤ C.rank top := by
  classical
  let rivals := batch.filter fun w => before w = .admitted ∧ C.isSource w = true ∧ C.key w = C.key z
  have hmem : ∀ {w}, w ∈ rivals ↔
      w ∈ batch ∧ before w = .admitted ∧ C.isSource w = true ∧ C.key w = C.key z := by
    intro w
    simp [rivals]
  cases htop : rivals.argmax C.rank with
  | none =>
      rw [List.argmax_eq_none.mp htop] at hmem
      exact absurd (hmem.mpr ⟨hz.1, hz.2, hsource, rfl⟩) List.not_mem_nil
  | some top =>
      obtain ⟨hbatch, hbefore, htopSource, hkey⟩ := hmem.mp (List.argmax_mem htop)
      exact ⟨top, ⟨hbatch, hbefore⟩, htopSource, hkey, fun w hw hwSource hwKey =>
        List.le_of_mem_argmax (hmem.mpr ⟨hw.1, hw.2, hwSource, hwKey⟩) htop⟩

/-- A good order is admitted, when no item is refused and no two sources share the top rank. -/
theorem good_order_admitted (hnone : ∀ x ∈ batch, before x ≠ .refused)
    (htied : ¬ C.Tied before batch) (hperm : order.Perm batch)
    (hgood : order.Pairwise C.Earlier) : C.admitAll before [] order ≠ none := by
  intro h
  obtain ⟨done, y, todo, kept, rfl, hkept, hrefused | ⟨hbefore, hjudge⟩⟩ := admit_all_eq_none h
  · exact hnone y (hperm.subset (by simp)) hrefused
  obtain ⟨hsub, hcontends, hpairwise⟩ := admit_all_from_nil hkept
  obtain ⟨first, x, rest, rfl, hrival, hrank, hfirst⟩ := judge_refused hjudge
  obtain ⟨hdone, hafter, hacross⟩ := List.pairwise_append.mp hgood
  have hx := hcontends x (by simp)
  have hy : C.isSource y = true := by
    rcases hacross x hx.1 y List.mem_cons_self with hfalse | hsource
    · rw [hrival.2.1] at hfalse
      cases hfalse
    · exact hsource.1
  refine htied ⟨x, y, ⟨hperm.subset (List.mem_append_left _ hx.1), hx.2⟩,
    ⟨hperm.subset (by simp), hbefore⟩, hrival,
    ⟨hrival.1.symm, hy, hrival.2.2.1.symm, Nat.le_of_eq hrank⟩, ?_⟩
  intro z hz hzSource hzKey
  obtain ⟨top, htop, htopSource, htopKey, hmax⟩ := exists_top hz hzSource
  refine (hmax z hz hzSource rfl).trans (Nat.le_of_not_lt fun hlt => ?_)
  -- the highest ranked source comes before `x`, and then it stands against `y` before `x` does
  have hmemDone : top ∈ done := by
    rcases List.mem_append.mp (hperm.symm.subset htop.1) with hmem | hmem
    · exact hmem
    · rcases List.mem_cons.mp hmem with rfl | hmem
      · omega
      · rcases (List.pairwise_cons.mp hafter).1 top hmem with hfalse | ⟨-, hle⟩
        · rw [hy] at hfalse
          cases hfalse
        · omega
  have hmemKept : top ∈ first ++ x :: rest :=
    top_admitted hmemDone htop.2 hkept fun w hw hwSource hwKey =>
      hmax w ⟨hperm.subset (List.mem_append_left _ (hcontends w hw).1), (hcontends w hw).2⟩
        hwSource (hwKey.trans htopKey)
  have hmemFirst : top ∈ first := by
    rcases List.mem_append.mp hmemKept with hmem | hmem
    · exact hmem
    · rcases List.mem_cons.mp hmem with rfl | hmem
      · omega
      · have hearlier := (List.pairwise_append.mp (hdone.sublist hsub)).2.1
        rcases (List.pairwise_cons.mp hearlier).1 top hmem with hfalse | ⟨-, hle⟩
        · rw [hrival.2.1] at hfalse
          cases hfalse
        · omega
  have hkey : C.key top = C.key x := htopKey.trans hzKey
  have hrootY : C.root top = C.root y := by
    by_contra hne
    exact hfirst top hmemFirst ⟨hkey.trans hrival.1, htopSource, hne, by omega⟩
  have hrootX : C.root top = C.root x := by
    by_contra hne
    exact (List.pairwise_append.mp hpairwise).2.2 top hmemFirst x List.mem_cons_self
      ⟨hkey, htopSource, hne, hlt.le⟩
  exact hrival.2.2.1 (hrootX.symm.trans hrootY)

/-- An item that another stands against is admitted in one order and not in the other. -/
theorem not_same_of_rivals (hx : Contends before batch x) (hy : Contends before batch y)
    (hrival : C.Rivals x y) {kept : α → Prop}
    (hsame : ∀ order : List α, order.Perm batch →
      ∃ out, C.admitAll before [] order = some out ∧ ∀ z, z ∈ out ↔ kept z) : False := by
  have hne : y ≠ x := fun heq => hrival.2.2.1 (congrArg C.root heq.symm)
  obtain ⟨before', after, rfl⟩ := List.append_of_mem hx.1
  have hmem : y ∈ before' ++ after := by
    rcases List.mem_append.mp hy.1 with h | h
    · exact List.mem_append_left _ h
    · exact List.mem_append_right _ ((List.mem_cons.mp h).resolve_left hne)
  obtain ⟨left, right, hsplit⟩ := List.append_of_mem hmem
  have hperm : (x :: y :: (left ++ right)).Perm (before' ++ x :: after) :=
    ((List.perm_middle.symm.cons x).trans (hsplit ▸ .refl _)).trans List.perm_middle.symm
  obtain ⟨one, hone, hkeptOne⟩ := hsame _ hperm
  obtain ⟨two, htwo, hkeptTwo⟩ := hsame _ ((List.Perm.swap x y _).trans hperm)
  have hfirst : ∀ z, C.judge [] z = .admitted := fun z => rfl
  rw [admitAll, hx.2] at hone
  rw [admitAll, hy.2] at htwo
  simp only [hfirst, List.nil_append] at hone htwo
  have hkept : kept y := (hkeptTwo y).mp (seen_subset htwo y (by simp))
  obtain ⟨new, hout, -, hnew, -⟩ := admit_all_some hone
  have hnewY : y ∈ new := by
    have hmemOne := (hkeptOne y).mpr hkept
    rw [hout] at hmemOne
    exact (List.mem_append.mp hmemOne).resolve_left (by simpa using hne)
  exact (hnew y hnewY).2 x (by simp) hrival

/-- The order makes no difference, and one root is admitted for each key, exactly when an item is
refused, or two sources share the highest rank of their key, or nobody stands against anybody. -/
theorem fair_iff : C.OrderIndependent before batch ∧ C.OneRoot before batch ↔
    (∃ x ∈ batch, before x = .refused) ∨ C.Tied before batch ∨ C.Unrivalled before batch := by
  constructor
  · rintro ⟨hindependent, -⟩
    by_cases hnone : ∃ x ∈ batch, before x = .refused
    · exact .inl hnone
    push Not at hnone
    by_cases htied : C.Tied before batch
    · exact .inr (.inl htied)
    obtain ⟨order, hperm, hgood⟩ := exists_good_order C batch
    rcases hindependent with hall | ⟨kept, hsame⟩
    · exact absurd (hall order hperm) (good_order_admitted hnone htied hperm hgood)
    · exact .inr (.inr fun x y hx hy hrival => not_same_of_rivals hx hy hrival hsame)
  · intro h
    have hrefuses : ∀ {batch : List α}, (∀ order : List α, order.Perm batch →
        C.admitAll before [] order = none) →
        C.OrderIndependent before batch ∧ C.OneRoot before batch := fun hall =>
      ⟨.inl hall, fun order out hperm hout => by rw [hall order hperm] at hout; cases hout⟩
    by_cases hnone : ∃ x ∈ batch, before x = .refused
    · obtain ⟨x, hx, hrefused⟩ := hnone
      exact hrefuses fun order hperm => admit_all_refused (hperm.symm.subset hx) hrefused
    rcases h with h | h | h
    · exact absurd h hnone
    · exact hrefuses fun order hperm => admit_all_tied h hperm
    push Not at hnone
    have hout : ∀ order : List α, order.Perm batch →
        C.admitAll before [] order = some (order.filter fun x => before x = .admitted) :=
      fun order hperm => admit_all_unrivalled (fun x hx => hnone x (hperm.subset hx))
        (fun x hx y hy hxb hyb => h x y ⟨hperm.subset hx, hxb⟩ ⟨hperm.subset hy, hyb⟩)
        (fun x hx => absurd hx List.not_mem_nil)
    refine ⟨.inr ⟨Contends before batch, fun order hperm => ⟨_, hout order hperm, fun x => ?_⟩⟩,
      fun order out hperm hadmitted x hx y hy hkey hxSource hySource => ?_⟩
    · rw [List.mem_filter, hperm.mem_iff, decide_eq_true_iff]
      rfl
    · obtain ⟨-, hcontends, -⟩ := admit_all_from_nil hadmitted
      have hbatch : ∀ z ∈ out, Contends before batch z :=
        fun z hz => ⟨hperm.subset (hcontends z hz).1, (hcontends z hz).2⟩
      by_contra hroot
      rcases rivals_total hkey hxSource hySource hroot with hrival | hrival
      · exact h x y (hbatch x hx) (hbatch y hy) hrival
      · exact h y x (hbatch y hy) (hbatch x hx) hrival

end Contest

end Execution
