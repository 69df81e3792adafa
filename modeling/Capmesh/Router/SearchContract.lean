import Mathlib.Algebra.Order.Ring.Rat
import Capmesh.Router.Discovery
import Capmesh.Router.SystemCalls

/-!
# What a search may return

The results of `search` as a whole, for any rows the text and vector indexes answer with:
`search_contract` bounds and orders them, and says what each is. Of several copies of one content
the search keeps the one with the highest score. `usable_copy` says what that means for a copy which
the principal may load.
-/

namespace Capmesh

open Python Relational

section

variable {α κ : Type} [DecidableEq κ]

theorem first_of_each_distinct (key : α → κ) (seen : List κ) (items : List α) :
    (firstOfEach key seen items).Pairwise (fun a b => key a ≠ key b) ∧
      ∀ item ∈ firstOfEach key seen items, key item ∉ seen := by
  induction items generalizing seen with
  | nil => exact ⟨List.Pairwise.nil, fun _ h => absurd h List.not_mem_nil⟩
  | cons head items ih =>
      unfold firstOfEach
      by_cases hseen : seen.contains (key head) = true
      · rw [if_pos hseen]
        exact ih seen
      · obtain ⟨hdistinct, hfresh⟩ := ih (key head :: seen)
        rw [if_neg hseen]
        constructor
        · refine List.pairwise_cons.mpr ⟨fun item hitem hsame => ?_, hdistinct⟩
          exact hfresh item hitem (hsame ▸ List.mem_cons_self)
        · intro item hitem
          rcases List.mem_cons.mp hitem with rfl | hitem
          · simpa using hseen
          · exact fun hmem => hfresh item hitem (List.mem_cons_of_mem _ hmem)

theorem first_of_each_first {key : α → κ} {seen : List κ} {items : List α} {r : α → α → Prop}
    (hrefl : ∀ a, r a a) (hsorted : items.Pairwise r) {kept item : α}
    (hkept : kept ∈ firstOfEach key seen items) (hitem : item ∈ items)
    (hsame : key item = key kept) : r kept item := by
  induction items generalizing seen with
  | nil => exact absurd hitem List.not_mem_nil
  | cons head items ih =>
      obtain ⟨hhead, hsorted⟩ := List.pairwise_cons.mp hsorted
      have hfresh := (first_of_each_distinct key seen (head :: items)).2 kept hkept
      unfold firstOfEach at hkept
      by_cases hseen : seen.contains (key head) = true
      · rw [if_pos hseen] at hkept
        rcases List.mem_cons.mp hitem with rfl | hitem
        · exact absurd (by simpa [hsame] using hseen) hfresh
        · exact ih hsorted hkept hitem
      · rw [if_neg hseen] at hkept
        rcases List.mem_cons.mp hkept with rfl | hkept
        · rcases List.mem_cons.mp hitem with rfl | hitem
          · exact hrefl _
          · exact hhead item hitem
        · rcases List.mem_cons.mp hitem with rfl | hitem
          · have hfresh := (first_of_each_distinct key (key item :: seen) items).2 kept hkept
            exact absurd (hsame ▸ List.mem_cons_self) hfresh
          · exact ih hsorted hkept hitem

end

section

variable {p : Platform} {engine : SearchEngine} {db : Database} {args : SearchArgs}
variable {canDiscover : Capability → Bool × Bool}

/-- The scored candidates in the order of the search. -/
def rankedCandidates (p : Platform) (engine : SearchEngine) (db : Database)
    (canDiscover : Capability → Bool × Bool) (args : SearchArgs) : List Scored :=
  let ranks := candidates (foundRows p engine db args)
  (scoredCandidates db canDiscover args.query ranks).insertionSort fun a b => b.score ≤ a.score

theorem ranked_sorted (p : Platform) (engine : SearchEngine) (db : Database)
    (canDiscover : Capability → Bool × Bool) (args : SearchArgs) :
    (rankedCandidates p engine db canDiscover args).Pairwise fun a b => b.score ≤ a.score := by
  have htotal : Std.Total fun a b : Scored => b.score ≤ a.score := ⟨fun _ _ => le_total _ _⟩
  have htrans : IsTrans Scored fun a b => b.score ≤ a.score := ⟨fun _ _ _ h g => g.trans h⟩
  exact List.pairwise_insertionSort _ _

theorem plugins_first_subset {limit : Nat} {rows : List CapabilityRow} {row : CapabilityRow}
    (h : row ∈ pluginsFirst limit rows) : row ∈ rows := by
  rcases List.mem_append.mp (List.mem_of_mem_take h) with h | h
  · exact (List.mem_filter.mp h).1
  · exact (List.mem_filter.mp h).1

theorem mem_of_mem_ite {α : Type} {c : Prop} [Decidable c] {a : α} {first second : List α}
    (h : a ∈ if c then first else second) : a ∈ first ∨ a ∈ second := by
  split at h
  · exact .inl h
  · exact .inr h

/-- Every way of matching finds rows of the catalog, of the type asked for. -/
theorem found_rows_spec {kind : MatchKind} {rows : List CapabilityRow} {row : CapabilityRow}
    (hfound : (kind, rows) ∈ foundRows p engine db args) (hrow : row ∈ rows) :
    row ∈ db.capabilities ∧ args.ofType row = true := by
  have hselected : ∀ test : CapabilityRow → Bool,
      row ∈ pluginsFirst args.candidateLimit (db.capabilities.rows.filter fun row =>
        test row && args.ofType row) → row ∈ db.capabilities ∧ args.ofType row = true := by
    intro test h
    obtain ⟨hmem, htest⟩ := List.mem_filter.mp (plugins_first_subset h)
    exact ⟨hmem, (Bool.and_eq_true_iff.mp htest).2⟩
  have hjoined : ∀ {rowids : Option (List Nat)}, row ∈ joinedRows db args rowids →
      row ∈ db.capabilities ∧ args.ofType row = true := by
    intro rowids h
    obtain ⟨hmem, htype⟩ := List.mem_filter.mp (List.mem_of_mem_take h)
    obtain ⟨rowid, -, hfind⟩ := List.mem_filterMap.mp hmem
    exact ⟨(Table.find?_some hfind).1, htype⟩
  unfold foundRows at hfound
  dsimp only at hfound
  rcases mem_of_mem_ite hfound with hfound | hfound
  · simp only [List.mem_singleton, Prod.mk.injEq] at hfound
    rw [hfound.2, likeRows] at hrow
    exact hselected _ hrow
  · simp only [List.mem_cons, Prod.mk.injEq, List.not_mem_nil, or_false] at hfound
    rcases hfound with ⟨-, hrows⟩ | ⟨-, hrows⟩ | ⟨-, hrows⟩ | ⟨-, hrows⟩
    · rw [hrows, exactRows] at hrow
      exact hselected _ hrow
    · rw [hrows] at hrow
      exact (mem_of_mem_ite hrow).elim (fun h => absurd h List.not_mem_nil) hjoined
    · rw [hrows] at hrow
      exact (mem_of_mem_ite hrow).elim (fun h => absurd h List.not_mem_nil) hjoined
    · rw [hrows] at hrow
      exact hjoined hrow

theorem mem_candidates {found : List (MatchKind × List CapabilityRow)} {candidate : Candidate}
    (h : candidate ∈ candidates found) :
    ∃ kind rows, (kind, rows) ∈ found ∧ ∃ row ∈ rows, row.cap.uri = candidate.uri := by
  obtain ⟨uri, huri, rfl⟩ := List.mem_map.mp h
  obtain ⟨⟨place, kind, rank⟩, hplace, hsame⟩ := List.mem_map.mp (List.mem_eraseDups.mp huri)
  obtain ⟨⟨way, rows⟩, hfound, hmem⟩ := List.mem_flatMap.mp hplace
  obtain ⟨⟨row, index⟩, hrow, hentry⟩ := List.mem_map.mp hmem
  refine ⟨way, rows, hfound, row, ?_, ?_⟩
  · exact List.mem_of_getElem? (List.mk_mem_zipIdx_iff_getElem?.mp hrow)
  · exact (congrArg Prod.fst hentry).trans hsame

theorem mem_scored_candidates {query : String} {ranks : List Candidate} {item : Scored}
    (h : item ∈ scoredCandidates db canDiscover query ranks) : ∃ candidate ∈ ranks, ∃ row,
      db.capabilityAt candidate.uri = some row ∧ row.cap = item.capability ∧
      capguardIsHeld db.quarantine item.capability = false ∧
      (canDiscover item.capability).1 = true ∧
      item.score = searchScore query item.capability candidate.parts
        (canDiscover item.capability).2 := by
  obtain ⟨candidate, hcandidate, hscored⟩ := List.mem_filterMap.mp h
  cases hat : db.capabilityAt candidate.uri with
  | none => simp [hat] at hscored
  | some row =>
      cases hheld : capguardIsHeld db.quarantine row.cap with
      | true => simp [hat, hheld] at hscored
      | false =>
          cases hvisible : (canDiscover row.cap).1 with
          | false => simp [hat, hheld, hvisible] at hscored
          | true =>
              simp only [hat, hheld, hvisible, Bool.false_eq_true, if_false, Bool.not_true,
                Option.some.injEq] at hscored
              subst hscored
              exact ⟨candidate, hcandidate, row, hat, rfl, hheld, hvisible, rfl⟩

/-- The type and the content, which a search returns once. -/
def Scored.equivalent (item : Scored) : CapabilityType × String :=
  (item.capability.capabilityType, item.capability.contentHash)

/-- What a search returns are the kept candidates, numbered. -/
theorem search_eq : search p engine db canDiscover args =
    ((firstOfEach Scored.equivalent [] (rankedCandidates p engine db canDiscover args)).take
      args.limit).zipIdx.map fun (item, index) =>
        ⟨item.capability, item.score, index + 1, item.matchedBy,
          (canDiscover item.capability).2⟩ := rfl

theorem pairwise_zip_idx {α : Type} {r : α → α → Prop} {items : List α} (h : items.Pairwise r) :
    items.zipIdx.Pairwise fun a b => r a.1 b.1 := by
  rw [← List.zipIdx_map_fst 0 items] at h
  exact List.pairwise_map.mp h

theorem result_ranked {result : SearchResult} (h : result ∈ search p engine db canDiscover args) :
    ∃ item ∈ firstOfEach Scored.equivalent [] (rankedCandidates p engine db canDiscover args),
      item.capability = result.capability ∧ item.score = result.score ∧
      result.locked = (canDiscover result.capability).2 := by
  rw [search_eq] at h
  obtain ⟨⟨item, index⟩, hitem, rfl⟩ := List.mem_map.mp h
  have hkept := List.mem_of_mem_take
    (List.mem_of_getElem? (List.mk_mem_zipIdx_iff_getElem?.mp hitem))
  exact ⟨item, hkept, rfl, rfl, rfl⟩

/-- **The contract of a search.** Whatever the indexes answer, a search returns no more results than
it was asked for, numbered from one by falling score, no two of one type and content, and each of
them is of the type asked for, not held, visible, and locked as `can_discover` says. -/
theorem search_contract (p : Platform) (engine : SearchEngine) (request : ToolRequest)
    (db : Database) (args : SearchArgs) :
    ((request.found p db engine args).length : Int) ≤ min (max args.k 1) 50 ∧
    (request.found p db engine args).map (·.rank) =
      List.range' 1 (request.found p db engine args).length ∧
    (request.found p db engine args).Pairwise (fun a b => b.score ≤ a.score) ∧
    (request.found p db engine args).Pairwise (fun a b =>
      (a.capability.capabilityType, a.capability.contentHash) ≠
        (b.capability.capabilityType, b.capability.contentHash)) ∧
    ∀ result ∈ request.found p db engine args,
      (∃ row ∈ db.capabilities, row.cap = result.capability) ∧
      capguardIsHeld db.quarantine result.capability = false ∧
      (request.canDiscover p db result.capability).1 = true ∧
      (present args.capabilityType = true →
        args.capabilityType = some result.capability.capabilityType.text) ∧
      result.locked = (request.canDiscover p db result.capability).2 := by
  unfold ToolRequest.found
  refine ⟨?_, ?_, ?_, ?_, fun result hresult => ?_⟩
  · have hlimit : (args.limit : Int) = min (max args.k 1) 50 := by
      unfold SearchArgs.limit
      omega
    rw [search_eq, List.length_map, List.length_zipIdx, List.length_take]
    omega
  · have hnumber : ∀ items : List Scored, items.zipIdx.map (fun entry => entry.2 + 1) =
        List.range' 1 items.length := by
      intro items
      calc items.zipIdx.map (fun entry => entry.2 + 1) = (items.zipIdx.map Prod.snd).map (· + 1) :=
            List.map_map.symm
        _ = (List.range' 0 items.length).map (· + 1) := by rw [List.zipIdx_map_snd]
        _ = List.range' 1 items.length := List.range'_succ_left.symm
    rw [search_eq, List.length_map, List.length_zipIdx, List.map_map]
    exact hnumber _
  · rw [search_eq]
    have hsorted := (ranked_sorted p engine db (request.canDiscover p db) args).sublist
      (first_of_each_sublist Scored.equivalent [] _)
    exact List.pairwise_map.mpr (pairwise_zip_idx (hsorted.sublist (List.take_sublist _ _)))
  · rw [search_eq]
    have hdistinct := (first_of_each_distinct Scored.equivalent []
      (rankedCandidates p engine db (request.canDiscover p db) args)).1
    exact List.pairwise_map.mpr (pairwise_zip_idx (hdistinct.sublist (List.take_sublist _ _)))
  · obtain ⟨item, hkept, hcap, -, hlocked⟩ := result_ranked hresult
    have hscored := (List.mem_insertionSort _).mp ((first_of_each_sublist _ _ _).subset hkept)
    obtain ⟨candidate, hcandidate, row, hat, hrow, hfree, hvisible, -⟩ :=
      mem_scored_candidates hscored
    rw [hcap] at hrow hfree hvisible
    obtain ⟨kind, rows, hfound, found, hmem, huri⟩ := mem_candidates hcandidate
    obtain ⟨hfoundRow, htype⟩ := found_rows_spec hfound hmem
    -- the row read again at the address of a found row is that row
    rw [← huri, Database.capability_at_eq hfoundRow] at hat
    have hsame := Option.some.inj hat
    subst hsame
    refine ⟨⟨found, hfoundRow, hrow⟩, hfree, hvisible, fun hpresent => ?_, hlocked⟩
    rw [SearchArgs.ofType, hpresent, hrow] at htype
    simpa using htype

end

section

variable {p : Platform} {engine : SearchEngine} {request : ToolRequest} {db : Database}
variable {args : SearchArgs}

/-- A visible capability is a stub exactly when it may not be loaded. -/
theorem locked_iff {cap : Capability} (hvisible : (request.canDiscover p db cap).1 = true) :
    (request.canDiscover p db cap).2 = false ↔
      (request.canLoad p db "load" cap).allowed = true := by
  cases hload : (request.canLoad p db "load" cap).allowed with
  | true => simp [can_discover_of_load hload]
  | false =>
      rw [can_discover_of_not_load hload] at hvisible ⊢
      by_cases hmode : cap.discoveryMode = .locked
      · simp [hmode]
      · simp [hmode] at hvisible

theorem loadable_scored {candidate : Candidate} {row : CapabilityRow}
    (hcandidate : candidate ∈ candidates (foundRows p engine db args))
    (hat : db.capabilityAt candidate.uri = some row)
    (hfree : capguardIsHeld db.quarantine row.cap = false)
    (hload : (request.canLoad p db "load" row.cap).allowed = true) :
    ∃ item ∈ rankedCandidates p engine db (request.canDiscover p db) args,
      item.capability = row.cap ∧
      item.score = searchScore args.query row.cap candidate.parts false := by
  let item : Scored :=
    { score := searchScore args.query row.cap candidate.parts false
      capability := row.cap
      matchedBy := [.exact, .fts, .ftsExpanded, .like, .vector].filter fun kind =>
        candidate.parts.any (·.1 = kind) }
  have hitem : item ∈ scoredCandidates db (request.canDiscover p db) args.query
      (candidates (foundRows p engine db args)) := by
    refine List.mem_filterMap.mpr ⟨candidate, hcandidate, ?_⟩
    simp [hat, hfree, can_discover_of_load hload, item]
  exact ⟨item, (List.mem_insertionSort _).mpr hitem, rfl, rfl⟩

/-- **The copy that is kept.** Where a copy that the principal may load was found and is not held,
what the search returns of that type and content may be loaded too, or is a stub of at least its
score: a quarter of what the places and the name of the stub earn. -/
theorem usable_copy (p : Platform) (engine : SearchEngine) (request : ToolRequest) (db : Database)
    (args : SearchArgs) {candidate : Candidate} {row : CapabilityRow} {result : SearchResult}
    (hcandidate : candidate ∈ candidates (foundRows p engine db args))
    (hat : db.capabilityAt candidate.uri = some row)
    (hfree : capguardIsHeld db.quarantine row.cap = false)
    (hload : (request.canLoad p db "load" row.cap).allowed = true)
    (hresult : result ∈ request.found p db engine args)
    (htype : result.capability.capabilityType = row.cap.capabilityType)
    (hhash : result.capability.contentHash = row.cap.contentHash) :
    (request.canLoad p db "load" result.capability).allowed = true ∨
      ∃ own ∈ candidates (foundRows p engine db args), own.uri = result.capability.uri ∧
        result.score = searchScore args.query result.capability own.parts true ∧
        searchScore args.query row.cap candidate.parts false ≤ result.score := by
  obtain ⟨item, hitem, hcap, hscore⟩ := loadable_scored hcandidate hat hfree hload
  obtain ⟨kept, hkept, hkeptCap, hkeptScore, -⟩ := result_ranked hresult
  have hranked := (first_of_each_sublist Scored.equivalent [] _).subset hkept
  obtain ⟨own, hown, found, hfound, hrow, -, hvisible, hearned⟩ :=
    mem_scored_candidates ((List.mem_insertionSort _).mp hranked)
  rw [hkeptCap] at hrow hvisible hearned
  by_cases hlocked : (request.canDiscover p db result.capability).2 = true
  · right
    refine ⟨own, hown, ?_, ?_, ?_⟩
    · rw [← (Database.capability_at_some hfound).2, hrow]
    · rw [← hkeptScore, hearned, hlocked]
    · -- of one type and content the search keeps the first, which has the highest score
      have hsame : item.equivalent = kept.equivalent := by
        simp only [Scored.equivalent, hcap, hkeptCap, htype, hhash]
      rw [← hscore, ← hkeptScore]
      exact first_of_each_first (fun a => le_refl a.score)
        (ranked_sorted p engine db (request.canDiscover p db) args) hkept hitem hsame
  · exact .inl ((locked_iff hvisible).mp (Bool.eq_false_iff.mpr hlocked))

end

/-- A copy of the shared skill that everybody may load, under another name. -/
def publicCopy : Capability :=
  { sharedSkill with
    uri := "cap://asg.local/skill/memo.memo@0-1-0", name := "memo", title := "Memo"
    canonicalKey := "skill:memo:memo:0-1-0", visibility := .public }

/-- The shared skill as a locked stub, with its public copy. -/
def copiedCatalog : Database :=
  { Database.empty with
    capabilities := ⟨[⟨1, { sharedSkill with discoveryMode := .locked }⟩, ⟨2, publicCopy⟩],
      by decide⟩ }

/-- A vector index that knows both. -/
def bothNear : SearchEngine where
  fts _ _ := none
  expandSearchTerms text := text
  vector _ _ _ := some [1, 2]

/-- The public copy is found, and its place. -/
def publicCandidate : Candidate := ⟨publicCopy.uri, [(.vector, 2)]⟩

theorem public_candidate_found : publicCandidate ∈
    candidates (foundRows .sample bothNear copiedCatalog { query := "notes" }) := by
  decide +kernel

theorem public_copy_at :
    copiedCatalog.capabilityAt publicCandidate.uri = some ⟨2, publicCopy⟩ := by decide

theorem public_copy_loadable :
    ((requestBy "bob").canLoad .sample copiedCatalog "load" publicCopy).allowed = true := by
  decide +kernel

theorem search_returns_stub : ∃ result ∈
    (requestBy "bob").found .sample copiedCatalog bothNear { query := "notes" },
      result.capability = { sharedSkill with discoveryMode := .locked } ∧ result.locked = true := by
  have hresults : (((requestBy "bob").found .sample copiedCatalog bothNear
      { query := "notes" }).map fun result => (result.capability, result.locked)) =
        [({ sharedSkill with discoveryMode := .locked }, true)] := by decide +kernel
  have hmem := List.mem_singleton.mpr (Eq.refl (({ sharedSkill with discoveryMode := .locked } :
    Capability), true))
  rw [← hresults] at hmem
  obtain ⟨result, hresult, hsame⟩ := List.mem_map.mp hmem
  exact ⟨result, hresult, Prod.ext_iff.mp hsame⟩

/-- The stub displaces the copy that bob may load. -/
theorem usable_copy_counterexample :
    ¬ ∀ (p : Platform) (engine : SearchEngine) (request : ToolRequest) (db : Database)
      (args : SearchArgs) (candidate : Candidate) (row : CapabilityRow) (result : SearchResult),
      candidate ∈ candidates (foundRows p engine db args) →
      db.capabilityAt candidate.uri = some row →
      capguardIsHeld db.quarantine row.cap = false →
      (request.canLoad p db "load" row.cap).allowed = true →
      result ∈ request.found p db engine args →
      result.capability.capabilityType = row.cap.capabilityType →
      result.capability.contentHash = row.cap.contentHash →
      (request.canLoad p db "load" result.capability).allowed = true := by
  intro hclaim
  obtain ⟨result, hresult, hcap, -⟩ := search_returns_stub
  have hload := hclaim .sample bothNear (requestBy "bob") copiedCatalog { query := "notes" }
    publicCandidate ⟨2, publicCopy⟩ result public_candidate_found public_copy_at (by decide)
    public_copy_loadable hresult (by rw [hcap]; rfl) (by rw [hcap]; rfl)
  rw [hcap] at hload
  revert hload
  decide +kernel

theorem usable_copy_bob : ∃ result ∈
    (requestBy "bob").found .sample copiedCatalog bothNear { query := "notes" },
    (((requestBy "bob").canLoad .sample copiedCatalog "load" result.capability).allowed = true ∨
      ∃ own ∈ candidates (foundRows .sample bothNear copiedCatalog { query := "notes" }),
        own.uri = result.capability.uri ∧
        result.score = searchScore "notes" result.capability own.parts true ∧
        searchScore "notes" publicCopy publicCandidate.parts false ≤ result.score) := by
  obtain ⟨result, hresult, hcap, -⟩ := search_returns_stub
  have hkept := usable_copy .sample bothNear (requestBy "bob") copiedCatalog { query := "notes" }
    public_candidate_found public_copy_at (by decide) public_copy_loadable hresult
    (by rw [hcap]; rfl) (by rw [hcap]; rfl)
  exact ⟨result, hresult, hkept⟩

end Capmesh
