import Mathlib
import Mathlib.Data.Rat.Defs
import Capmesh.Index.Serving
import Capmesh.Python.Words

/-!
# Searching the catalog

`search` of `index.py`: four ways of matching find rows, their places are fused into one score for
each URI, and the loop over the candidates asks `can_discover`. Full-text and vector matching belong
to SQLite and its extension; a `SearchEngine` answers for them. Scores are exact rationals, and the
`LIKE` and `lower` of SQLite fold ASCII letters alone. `search_result_served` says what every result
has passed.
-/

namespace Capmesh

open Python Relational

/-- `QUERY_STOPWORDS`. -/
def queryStopwords : List String :=
  ["a", "an", "and", "for", "from", "in", "into", "is", "of", "on", "or", "the", "this", "to",
    "whether", "with"]

/-- `QUERY_SYNONYMS`. -/
def querySynonyms (term : String) : List String :=
  if term = "auth" then ["authentication", "authorization", "oauth"]
  else if term = "ci" then ["continuous-integration", "pipeline"]
  else if term = "db" then ["database", "sqlite"]
  else if term = "mcp" then ["model-context-protocol"]
  else if term = "observability" then ["telemetry", "metrics", "tracing"]
  else if term = "plugin" then ["extension", "skill"]
  else if term = "restore" then ["recovery", "backup"]
  else []

/-- The separators inside a token: `[-_./:]`. -/
def isTokenSeparator (c : Char) : Bool := ['-', '_', '.', '/', ':'].contains c

/-- The characters of a token: `[A-Za-z0-9_./:-]`. -/
def isTokenChar (c : Char) : Bool := c.isAlphanum || isTokenSeparator c

/-- A text with its ASCII letters in lower case, as `lower` of SQLite folds it. -/
def sqlLower (text : String) : String := String.ofList (text.toList.map Char.toLower)

/-- The pieces a query is made of: every token, followed by its parts. -/
def queryPieces (query : String) : List String :=
  ((words isTokenChar query.toList).map (·.map Char.toLower)).flatMap fun token =>
    (token :: words (!isTokenSeparator ·) token).map String.ofList

/-- Append a text that is not there yet. -/
def appendNew (terms : List String) (term : String) : List String :=
  if terms.contains term then terms else terms ++ [term]

/-- `query_terms`. -/
def queryTerms (query : String) : List String :=
  (((queryPieces query).filter fun piece =>
    1 < piece.length && !queryStopwords.contains piece).foldl appendNew []).take 16

/-- `retrieval_term_keys`: the first four characters of each term. -/
def retrievalTermKeys (text : String) : List String :=
  ((queryTerms text).map fun term => String.ofList (term.toList.take 4)).dedup

/-- `slug_query`. -/
def slugQuery (query : String) : String := join "-" (queryTerms query)

/-- `to_fts_query`: the terms and then their synonyms, in quotes. -/
def toFtsQuery (query : String) : String :=
  let terms := queryTerms query
  let expanded := (terms.flatMap querySynonyms).foldl appendNew terms
  join " OR " ((expanded.take 24).map fun term => "\"" ++ term ++ "\"")

/-- `text LIKE pattern`: a percent sign stands for any text and an underscore for one character. -/
def sqlLike : List Char → List Char → Bool
  | [], text => text.isEmpty
  | c :: pattern, text =>
      if c = '%' then text.tails.any (sqlLike pattern)
      else match text with
        | [] => false
        | d :: text => (c = '_' || c.toLower = d.toLower) && sqlLike pattern text

/-- `replace(text, '-', ' ')`. -/
def spaceHyphens (text : String) : String :=
  String.ofList (text.toList.map fun c => if c = '-' then ' ' else c)

/-- The ways in which a search finds a row. -/
inductive MatchKind where
  | exact | fts | ftsExpanded | like | vector
  deriving DecidableEq, Repr

/-- The weight of a way of matching; one the table does not name has weight 1. -/
def MatchKind.weight : MatchKind → ℚ
  | .exact => 8
  | .fts => 3 / 2
  | .ftsExpanded => 1
  | .like => 1 / 2
  | .vector => 1

/-- What `search` asks SQLite: the row ids of `capability_fts` that match a text query, the best
first, and the nearest ones of `capability_vec`; no answer is an error the search swallows. The
terms of an expanded query come in the order of a Python set. -/
structure SearchEngine where
  fts : Database → String → Option (List Nat)
  expandSearchTerms : String → String
  vector : Database → String → Nat → Option (List Nat)

/-- The arguments of `search`. -/
structure SearchArgs where
  query : String
  k : Int := 10
  capabilityType : Option String := none

namespace SearchArgs

variable (args : SearchArgs)

/-- The bound on the results. -/
def limit : Nat := (min (max args.k 1) 50).toNat

/-- `candidate_limit`. -/
def candidateLimit : Nat := min (max (args.limit * 12) 50) 600

/-- The clause on the type of a row. -/
def ofType (row : CapabilityRow) : Bool :=
  !present args.capabilityType || args.capabilityType = some row.cap.capabilityType.text

end SearchArgs

/-- `ORDER BY source_system = 'asg-os.plugins' DESC LIMIT ?`. -/
def pluginsFirst (limit : Nat) (rows : List CapabilityRow) : List CapabilityRow :=
  (rows.filter (·.cap.sourceSystem = "asg-os.plugins") ++
    rows.filter (·.cap.sourceSystem ≠ "asg-os.plugins")).take limit

/-- The rows found by name, by title, or by the name segment of their canonical key. -/
def exactRows (p : Platform) (db : Database) (args : SearchArgs) : List CapabilityRow :=
  let wanted := sqlLower (p.stripSpace args.query)
  pluginsFirst args.candidateLimit (db.capabilities.rows.filter fun row =>
    (sqlLower row.cap.name = wanted || sqlLower row.cap.title = wanted ||
      sqlLower (spaceHyphens row.cap.name) = wanted ||
      sqlLike ("%:" ++ slugQuery args.query ++ ":%").toList row.cap.canonicalKey.toList) &&
    args.ofType row)

/-- The rows of a list of row ids, of the type asked for. -/
def joinedRows (db : Database) (args : SearchArgs) (rowids : Option (List Nat)) :
    List CapabilityRow :=
  ((((rowids.getD []).filterMap fun rowid => db.capabilities.find? (·.id = rowid))).filter
    args.ofType).take args.candidateLimit

/-- The rows of the full-text index that match a query. -/
def ftsRows (engine : SearchEngine) (db : Database) (args : SearchArgs) (ftsQuery : String) :
    List CapabilityRow :=
  joinedRows db args (engine.fts db ftsQuery)

/-- `vector_rows`: five times as many neighbours are asked for when a type is. -/
def vectorRows (engine : SearchEngine) (db : Database) (args : SearchArgs) : List CapabilityRow :=
  joinedRows db args (engine.vector db args.query
    (max args.candidateLimit 1 * if present args.capabilityType then 5 else 1))

/-- The rows whose name, title or description has the terms in their order. -/
def likeRows (db : Database) (args : SearchArgs) : List CapabilityRow :=
  let terms := queryTerms args.query
  let pattern := ("%" ++ (if terms.isEmpty then args.query else join "%" terms) ++ "%").toList
  pluginsFirst args.candidateLimit (db.capabilities.rows.filter fun row =>
    (sqlLike pattern row.cap.name.toList || sqlLike pattern row.cap.title.toList ||
      sqlLike pattern row.cap.description.toList) && args.ofType row)

/-- The rows each way of matching finds. The expanded query is tried when the full-text query found
nothing, and `LIKE` when no way did. -/
def foundRows (p : Platform) (engine : SearchEngine) (db : Database) (args : SearchArgs) :
    List (MatchKind × List CapabilityRow) :=
  let ftsQuery := toFtsQuery args.query
  let fts := if ftsQuery = "" then [] else ftsRows engine db args ftsQuery
  let expanded := engine.expandSearchTerms args.query
  let widened :=
    if ftsQuery = "" || !fts.isEmpty || expanded = "" || expanded = ftsQuery then []
    else ftsRows engine db args expanded
  let found := [(.exact, exactRows p db args), (.fts, fts), (.ftsExpanded, widened),
    (.vector, vectorRows engine db args)]
  if found.all (·.2.isEmpty) then [(.like, likeRows db args)] else found

/-- One entry of `ranks`: a URI and the places at which it was found. -/
structure Candidate where
  uri : String
  parts : List (MatchKind × Nat)
  deriving DecidableEq, Repr

/-- `ranks`, in the order in which its URIs were found first. -/
def candidates (found : List (MatchKind × List CapabilityRow)) : List Candidate :=
  let places := found.flatMap fun (kind, rows) =>
    rows.zipIdx.map fun (row, index) => (row.cap.uri, kind, index + 1)
  (places.map (·.1)).eraseDups.map fun uri => ⟨uri, (places.filter (·.1 = uri)).map (·.2)⟩

/-- The fused places of a candidate. -/
def fusedRank (parts : List (MatchKind × Nat)) : ℚ :=
  (parts.map fun (kind, rank) => kind.weight / (60 + rank)).sum

/-- The reward of a name that is the query, or that has all its terms together with the title. -/
def nameBonus (query : String) (cap : Capability) : ℚ :=
  let wanted := queryTerms query
  if slugQuery cap.name = slugQuery query then 2
  else if !wanted.isEmpty && wanted.all fun term =>
      (queryTerms cap.title).contains term || (queryTerms cap.name).contains term then 1 / 4
  else 0

/-- The reward of a name that shares two keys with the query. -/
def keyBonus (query : String) (cap : Capability) : ℚ :=
  let nameKeys := retrievalTermKeys cap.name
  let overlap := (nameKeys.filter (retrievalTermKeys query).contains).length
  if 2 ≤ nameKeys.length && 2 ≤ overlap then 1 / 5 * (overlap / nameKeys.length) else 0

/-- The score of a candidate; that of a locked stub is a quarter. -/
def searchScore (query : String) (cap : Capability) (parts : List (MatchKind × Nat))
    (locked : Bool) : ℚ :=
  let score := fusedRank parts + nameBonus query cap + keyBonus query cap +
    if cap.sourceSystem = "asg-os.plugins" then 1 / 200 else 0
  if locked then score / 4 else score

/-- A candidate with its score. -/
structure Scored where
  score : ℚ
  capability : Capability
  matchedBy : List MatchKind

/-- The loop of `search` over its candidates. -/
def scoredCandidates (db : Database) (canDiscover : Capability → Bool × Bool) (query : String)
    (ranks : List Candidate) : List Scored :=
  ranks.filterMap fun candidate =>
    match db.capabilityAt candidate.uri with
    | none => none
    | some row =>
        if capguardIsHeld db.quarantine row.cap then none
        else if !(canDiscover row.cap).1 then none
        else some
          { score := searchScore query row.cap candidate.parts (canDiscover row.cap).2
            capability := row.cap
            matchedBy := [.exact, .fts, .ftsExpanded, .like, .vector].filter fun kind =>
              candidate.parts.any (·.1 = kind) }

/-- The items of a list whose key no earlier one has. -/
def firstOfEach {α κ : Type} [DecidableEq κ] (key : α → κ) : List κ → List α → List α
  | _, [] => []
  | seen, item :: items =>
      if seen.contains (key item) then firstOfEach key seen items
      else item :: firstOfEach key (key item :: seen) items

/-- A result of `search`. -/
structure SearchResult where
  capability : Capability
  score : ℚ
  rank : Nat
  matchedBy : List MatchKind
  locked : Bool

/-- `search`: the candidates by falling score, of those with one type and content the first. -/
def search (p : Platform) (engine : SearchEngine) (db : Database)
    (canDiscover : Capability → Bool × Bool) (args : SearchArgs) : List SearchResult :=
  let ranks := candidates (foundRows p engine db args)
  let scored := (scoredCandidates db canDiscover args.query ranks).insertionSort
    fun a b => b.score ≤ a.score
  let kept := firstOfEach (fun item : Scored =>
    (item.capability.capabilityType, item.capability.contentHash)) [] scored
  (kept.take args.limit).zipIdx.map fun (item, index) =>
    ⟨item.capability, item.score, index + 1, item.matchedBy, (canDiscover item.capability).2⟩

section

variable {p : Platform} {engine : SearchEngine} {db : Database} {args : SearchArgs}
variable {canDiscover : Capability → Bool × Bool}

theorem first_of_each_sublist {α κ : Type} [DecidableEq κ] (key : α → κ) (seen : List κ)
    (items : List α) : (firstOfEach key seen items).Sublist items := by
  induction items generalizing seen with
  | nil => exact List.Sublist.slnil
  | cons item items ih =>
      unfold firstOfEach
      split
      · exact (ih seen).cons item
      · exact (ih _).cons_cons item

theorem mem_served_rows_iff {quarantine : Table QuarantineRow} {visible : Capability → Bool}
    {rows : List CapabilityRow} {cap : Capability} :
    cap ∈ servedRows quarantine visible rows ↔
      (∃ row ∈ rows, row.cap = cap) ∧ capguardIsHeld quarantine cap = false ∧
        visible cap = true := by
  simp only [servedRows, List.mem_filterMap]
  constructor
  · rintro ⟨row, hrow, hserved⟩
    split at hserved
    · cases hserved
    · rename_i hfree
      split at hserved
      · rename_i hvisible
        cases hserved
        exact ⟨⟨row, hrow, rfl⟩, by simpa using hfree, hvisible⟩
      · cases hserved
  · rintro ⟨⟨row, hrow, rfl⟩, hfree, hvisible⟩
    exact ⟨row, hrow, by simp [hfree, hvisible]⟩

theorem scored_served {query : String} {ranks : List Candidate} {item : Scored}
    (h : item ∈ scoredCandidates db canDiscover query ranks) :
    item.capability ∈ searchCandidates db (fun cap => (canDiscover cap).1)
      (ranks.map (·.uri)) := by
  obtain ⟨candidate, hcandidate, hscored⟩ := List.mem_filterMap.mp h
  cases hrow : db.capabilityAt candidate.uri with
  | none => simp [hrow] at hscored
  | some row =>
      simp only [hrow] at hscored
      split at hscored
      · cases hscored
      rename_i hfree
      split at hscored
      · cases hscored
      rename_i hvisible
      cases hscored
      refine mem_served_rows_iff.mpr ⟨⟨row, ?_, rfl⟩, by simpa using hfree, by simpa using hvisible⟩
      exact List.mem_filterMap.mpr ⟨candidate.uri, List.mem_map_of_mem hcandidate, hrow⟩

/-- **What a search returns**: a row of the catalog that is not held and may be discovered, locked
as `can_discover` says. -/
theorem search_result_served {result : SearchResult}
    (h : result ∈ search p engine db canDiscover args) :
    (∃ row ∈ db.capabilities, row.cap = result.capability) ∧
      capguardIsHeld db.quarantine result.capability = false ∧
      (canDiscover result.capability).1 = true ∧
      result.locked = (canDiscover result.capability).2 := by
  simp only [search, List.mem_map, Prod.exists] at h
  obtain ⟨item, index, hindexed, rfl⟩ := h
  have hkept := List.mem_of_mem_take
    (List.mem_of_getElem? (List.mk_mem_zipIdx_iff_getElem?.mp hindexed))
  have hscored := (List.mem_insertionSort _).mp ((first_of_each_sublist _ _ _).subset hkept)
  obtain ⟨⟨row, hrow, hcap⟩, hfree, hvisible⟩ := mem_served_rows_iff.mp (scored_served hscored)
  obtain ⟨uri, -, hat⟩ := List.mem_filterMap.mp hrow
  exact ⟨⟨row, (Database.capability_at_some hat).1, hcap⟩, hfree, hvisible, rfl⟩

end

end Capmesh
