import Mathlib.Data.List.Sort
import Capmesh.Model.Database

/-!
# Serving a capability

`_capguard_is_held`, `get_capability`, `list_capabilities` and the candidate loop of
`search`, from `index.py`. A row is held while its tenant, its URI and its content hash
together name an active quarantine row. `hidden_of_held` says that no read serves a held
row.
-/

namespace Capmesh

open Python Relational

/-- `_capguard_is_held`. -/
def capguardIsHeld (quarantine : Table QuarantineRow) (capability : Capability) : Bool :=
  quarantine.any fun row =>
    row.Holds (orElse capability.tenantId "asg") capability.uri capability.contentHash

/-- The row `get_capability` reads: by URI, else by name or title with a row of
`asg-os.plugins` preferred. -/
def Database.lookup (db : Database) (uriOrName : String) : Option CapabilityRow :=
  match db.capabilityAt uriOrName with
  | some row => some row
  | none =>
      let named := db.capabilities.rows.filter fun row =>
        row.cap.name = uriOrName || row.cap.title = uriOrName
      match named.find? (·.cap.sourceSystem = "asg-os.plugins") with
      | some row => some row
      | none => named.head?

/-- `get_capability`: a held row is hidden. -/
def getCapability (db : Database) (uriOrName : String) : Option Capability :=
  match db.lookup uriOrName with
  | some row => if capguardIsHeld db.quarantine row.cap then none else some row.cap
  | none => none

/-- The loop over the rows a listing or a search selected: a held row is skipped, then
`can_discover` decides. -/
def servedRows (quarantine : Table QuarantineRow) (canDiscover : Capability → Bool)
    (rows : List CapabilityRow) : List Capability :=
  rows.filterMap fun row =>
    if capguardIsHeld quarantine row.cap then none
    else if canDiscover row.cap then some row.cap else none

/-- `ORDER BY type, plugin, name`, a missing plugin first. -/
def listOrder (a b : CapabilityRow) : Bool :=
  if a.cap.capabilityType ≠ b.cap.capabilityType then
    a.cap.capabilityType.text ≤ b.cap.capabilityType.text
  else match a.cap.plugin, b.cap.plugin with
    | none, some _ => true
    | some _, none => false
    | some x, some y => if x ≠ y then x ≤ y else a.cap.name ≤ b.cap.name
    | none, none => a.cap.name ≤ b.cap.name

/-- `list_capabilities`: the served rows of one page, and the offset of the next. -/
def listCapabilities (db : Database) (canDiscover : Capability → Bool)
    (capabilityType : Option CapabilityType) (plugin : Option String) (offset pageSize : Nat) :
    List Capability × Option Nat :=
  let pageSize := min (max pageSize 1) 100
  let selected := db.capabilities.rows.filter fun row =>
    (capabilityType.isNone || capabilityType = some row.cap.capabilityType) &&
      (!present plugin || row.cap.plugin = plugin)
  let rows := ((selected.insertionSort fun a b => listOrder a b).drop offset).take (pageSize + 1)
  (servedRows db.quarantine canDiscover (rows.take pageSize),
    if pageSize < rows.length then some (offset + pageSize) else none)

/-- The loop of `search` over the rows of its candidate URIs. -/
def searchCandidates (db : Database) (canDiscover : Capability → Bool) (uris : List String) :
    List Capability :=
  servedRows db.quarantine canDiscover (uris.filterMap db.capabilityAt)

/-- No read of the catalog serves the row. -/
structure Hidden (db : Database) (row : CapabilityRow) : Prop where
  get : ∀ uriOrName, getCapability db uriOrName ≠ some row.cap
  list : ∀ canDiscover capabilityType plugin offset pageSize,
    row.cap ∉ (listCapabilities db canDiscover capabilityType plugin offset pageSize).1
  search : ∀ canDiscover uris, row.cap ∉ searchCandidates db canDiscover uris

variable {quarantine : Table QuarantineRow} {db : Database} {row : CapabilityRow}

theorem capguard_is_held_iff (capability : Capability) :
    capguardIsHeld quarantine capability = true ↔ ∃ q ∈ quarantine,
      q.Holds (orElse capability.tenantId "asg") capability.uri capability.contentHash := by
  simp [capguardIsHeld, Table.any_iff]

theorem get_capability_of_held (hrow : row ∈ db.capabilities)
    (hheld : capguardIsHeld db.quarantine row.cap = true) :
    getCapability db row.cap.uri = none := by
  simp [getCapability, Database.lookup, Database.capability_at_eq hrow, hheld]

theorem get_capability_mem {text : String} {cap : Capability}
    (h : getCapability db text = some cap) : ∃ row ∈ db.capabilities, row.cap = cap := by
  unfold getCapability at h
  split at h
  · rename_i row hlookup
    split at h
    · cases h
    · refine ⟨row, ?_, Option.some.inj h⟩
      unfold Database.lookup at hlookup
      split at hlookup
      · rename_i found hat
        cases hlookup
        exact (Database.capability_at_some hat).1
      · dsimp only at hlookup
        split at hlookup
        · rename_i found hfind
          cases hlookup
          exact (List.mem_filter.mp (List.mem_of_find?_eq_some hfind)).1
        · exact (List.mem_filter.mp (List.mem_of_head? hlookup)).1
  · cases h

theorem not_mem_served_rows {cap : Capability} (hheld : capguardIsHeld quarantine cap = true)
    (canDiscover : Capability → Bool) (rows : List CapabilityRow) :
    cap ∉ servedRows quarantine canDiscover rows := by
  intro hmem
  obtain ⟨row, -, hrow⟩ := List.mem_filterMap.mp hmem
  split at hrow
  · cases hrow
  · rename_i hfree
    split at hrow
    · cases hrow
      exact hfree hheld
    · cases hrow

theorem hidden_of_held (hheld : capguardIsHeld db.quarantine row.cap = true) : Hidden db row := by
  refine ⟨fun uriOrName hget => ?_,
    fun canDiscover _ _ _ _ => not_mem_served_rows hheld canDiscover _,
    fun canDiscover _ => not_mem_served_rows hheld canDiscover _⟩
  unfold getCapability at hget
  split at hget
  · split at hget
    · cases hget
    · rename_i found _ hfree
      rw [← Option.some.inj hget] at hheld
      exact hfree hheld
  · cases hget

theorem capguard_is_held_congr {a b : Capability} (htenant : a.tenantId = b.tenantId)
    (huri : a.uri = b.uri) (hhash : a.contentHash = b.contentHash) :
    capguardIsHeld quarantine a = capguardIsHeld quarantine b := by
  simp only [capguardIsHeld, htenant, huri, hhash]

end Capmesh
