import Mathlib.Data.Prod.Lex
import Mathlib.Order.WithBot
import Mathlib.Data.String.Basic
import Capmesh.Governance.Addresses
import Capmesh.Python.Digits
import Capmesh.Router.Discovery

/-!
# Listing the catalog page by page

`list_capabilities` with its cursor. A page is cut from the selected rows before holds and access
are looked at, so a page may be short or empty; the cursor moves on by the rows it was cut from.
`follow_from` says what following the cursor collects, and `listing_visits_once` that a whole
listing shows each row that may be shown once.
-/

namespace Capmesh

open Python Relational

/-- The order in which SQLite returns the selected rows: that of `ORDER BY type, plugin, name`, and
for rows which it does not part an order that stays while the table does. -/
structure ListEngine where
  arrange : List CapabilityRow → List CapabilityRow
  perm : ∀ rows, (arrange rows).Perm rows
  sorted : ∀ rows, (arrange rows).Pairwise fun a b => listOrder a b

/-- What a listing is sorted by. -/
def listKey (row : CapabilityRow) : Lex (String × Lex (WithBot String × String)) :=
  toLex (row.cap.capabilityType.text, toLex (row.cap.plugin, row.cap.name))

theorem list_order_iff (a b : CapabilityRow) : listOrder a b = true ↔ listKey a ≤ listKey b := by
  have htype : a.cap.capabilityType.text = b.cap.capabilityType.text ↔
      a.cap.capabilityType = b.cap.capabilityType := ⟨type_text_inj, congrArg _⟩
  simp only [listKey, Prod.Lex.toLex_le_toLex, htype]
  unfold listOrder
  by_cases hsame : a.cap.capabilityType = b.cap.capabilityType
  · cases ha : a.cap.plugin with
    | none =>
        cases hb : b.cap.plugin <;> simp [hsame, WithBot.none_eq_bot, WithBot.some_eq_coe]
    | some x =>
        cases hb : b.cap.plugin with
        | none => simp [hsame, WithBot.none_eq_bot, WithBot.some_eq_coe]
        | some y =>
            by_cases hplugin : x = y
            · simp [hsame, hplugin, WithBot.some_eq_coe]
            · have hle : x ≤ y ↔ x < y := ⟨fun h => lt_of_le_of_ne h hplugin, le_of_lt⟩
              simp [hsame, hplugin, hle, WithBot.some_eq_coe]
  · have hne : a.cap.capabilityType.text ≠ b.cap.capabilityType.text := mt htype.mp hsame
    simp [hsame, le_iff_lt_or_eq, hne]

/-- SQLite with a stable sort. -/
def ListEngine.stable : ListEngine where
  arrange rows := rows.insertionSort fun a b => listOrder a b
  perm rows := List.perm_insertionSort _ rows
  sorted rows := by
    have htotal : Std.Total fun a b : CapabilityRow => (listOrder a b : Prop) :=
      ⟨fun a b => by simpa only [list_order_iff] using le_total (listKey a) (listKey b)⟩
    have htrans : IsTrans CapabilityRow fun a b => (listOrder a b : Prop) :=
      ⟨fun a b c => by simpa only [list_order_iff] using le_trans⟩
    exact List.pairwise_insertionSort _ rows

/-- The filters and the page size of a listing. -/
structure ListArgs where
  capabilityType : Option String := none
  plugin : Option String := none
  pageSize : Int := 50

namespace ListArgs

variable (args : ListArgs)

/-- `min(max(page_size, 1), 100)`. -/
def size : Nat := (min (max args.pageSize 1) 100).toNat

/-- The `WHERE` clause. -/
def selects (row : CapabilityRow) : Bool :=
  (!present args.capabilityType || args.capabilityType = some row.cap.capabilityType.text) &&
    (!present args.plugin || row.cap.plugin = args.plugin)

end ListArgs

/-- A page: each record stands for a capability, as a stub or in full. -/
structure ListPage where
  items : List (Capability × Bool)
  nextCursor : Option String
  pageSize : Nat

/-- The loop of `list_capabilities` over the rows of a page. -/
def pageItems (quarantine : Table QuarantineRow) (canDiscover : Capability → Bool × Bool)
    (rows : List CapabilityRow) : List (Capability × Bool) :=
  rows.filterMap fun row =>
    if capguardIsHeld quarantine row.cap then none
    else
      let (visible, locked) := canDiscover row.cap
      if visible then some (row.cap, locked) else none

namespace ToolRequest

variable (p : Platform) (table : DigitTable) (engine : ListEngine) (request : ToolRequest)
variable (db : Database) (args : ListArgs)

/-- `list_capabilities`. SQLite takes a negative offset for none. -/
def listPage (cursor : Option String) : Except String ListPage := do
  let offset ← table.intText p.chars.isSpace p.repr (optOr cursor "0").toList
  let selected := engine.arrange (db.capabilities.rows.filter args.selects)
  let rows := (selected.drop offset.toNat).take (args.size + 1)
  return {
    items := pageItems db.quarantine (request.canDiscover p db) (rows.take args.size)
    nextCursor := if args.size < rows.length then some (strOfInt (offset + args.size)) else none
    pageSize := args.size }

/-- The pages from a cursor on, each asked for with the cursor of the one before; at most as many as
the fuel allows. -/
def followCursor : Nat → Option String → Option (List ListPage)
  | 0, _ => none
  | fuel + 1, cursor => do
      let page ← (request.listPage p table engine db args cursor).toOption
      match page.nextCursor with
      | none => some [page]
      | some next => (followCursor fuel (some next)).map (page :: ·)

end ToolRequest

section

variable {p : Platform} {table : DigitTable} {engine : ListEngine} {request : ToolRequest}
variable {db : Database} {args : ListArgs} {canDiscover : Capability → Bool × Bool}
variable {quarantine : Table QuarantineRow} {rows : List CapabilityRow}

theorem ListArgs.size_pos : 0 < args.size := by
  show 0 < (min (max args.pageSize 1) 100).toNat
  omega

theorem page_items_eq (quarantine : Table QuarantineRow) (canDiscover : Capability → Bool × Bool)
    (rows : List CapabilityRow) :
    pageItems quarantine canDiscover rows =
      (rows.filter fun row =>
        !capguardIsHeld quarantine row.cap && (canDiscover row.cap).1).map fun row =>
          (row.cap, (canDiscover row.cap).2) := by
  induction rows with
  | nil => rfl
  | cons row rows ih =>
      unfold pageItems at ih ⊢
      rw [List.filterMap_cons, ih]
      cases hheld : capguardIsHeld quarantine row.cap <;>
        cases hsees : (canDiscover row.cap).1 <;> simp [hheld, hsees]

theorem page_items_append (first second : List CapabilityRow) :
    pageItems quarantine canDiscover (first ++ second) =
      pageItems quarantine canDiscover first ++ pageItems quarantine canDiscover second :=
  List.filterMap_append

theorem mem_page_items {cap : Capability} {locked : Bool} :
    (cap, locked) ∈ pageItems quarantine canDiscover rows ↔
      (∃ row ∈ rows, row.cap = cap) ∧ capguardIsHeld quarantine cap = false ∧
        canDiscover cap = (true, locked) := by
  simp only [page_items_eq, List.mem_map, List.mem_filter, Bool.and_eq_true, Bool.not_eq_true',
    Prod.ext_iff]
  constructor
  · rintro ⟨row, ⟨hrow, hfree, hvisible⟩, rfl, hlocked⟩
    exact ⟨⟨row, hrow, rfl⟩, hfree, hvisible, hlocked⟩
  · rintro ⟨⟨row, hrow, rfl⟩, hfree, hvisible, hlocked⟩
    exact ⟨row, ⟨hrow, hfree, hvisible⟩, rfl, hlocked⟩

/-- Rows at different addresses give records of different addresses. -/
theorem page_items_nodup (h : (rows.map (·.cap.uri)).Nodup) :
    ((pageItems quarantine canDiscover rows).map (·.1.uri)).Nodup := by
  rw [page_items_eq, List.map_map]
  exact h.sublist (List.filter_sublist.map _)

/-- A cursor that a page gave is read as the offset it was written from. -/
theorem cursor_offset (n : Nat) :
    table.intText p.chars.isSpace p.repr (optOr (some (strOfInt n)) "0").toList =
      .ok (n : Int) := by
  have hspace : ∀ c : Char, c.isDigit → p.chars.isSpace c = false := by
    intro c hdigit
    have hcode : c.toNat < 128 := by
      have hle := hdigit
      simp only [Char.isDigit, Bool.and_eq_true, decide_eq_true_eq, UInt32.le_iff_toNat_le] at hle
      have hval : c.val.toNat = c.toNat := rfl
      have htop : '9'.val.toNat = 57 := rfl
      omega
    cases h : p.chars.isSpace c with
    | false => rfl
    | true =>
        have halnum := p.chars.isAlnum_of_space c h
        rw [p.chars.isAlnum_ascii c hcode, Char.isAlphanum, hdigit, Bool.or_true] at halnum
        cases halnum
  have hne : strOfInt n ≠ "" := by
    intro h
    exact to_digits_ne_nil n ((str_of_int_to_list n).symm.trans (congrArg String.toList h))
  show table.intText p.chars.isSpace p.repr (orElse (strOfInt n) "0").toList = .ok (n : Int)
  rw [or_else_of_ne _ hne]
  exact int_text_str hspace p.repr n

theorem list_page_eq (request : ToolRequest) {cursor : Option String} {offset : Nat}
    (hcursor : table.intText p.chars.isSpace p.repr (optOr cursor "0").toList = .ok (offset : Int))
    (hrows : rows = (engine.arrange (db.capabilities.rows.filter args.selects)).drop offset) :
    ∃ page, request.listPage p table engine db args cursor = .ok page ∧
      page.items = pageItems db.quarantine (request.canDiscover p db) (rows.take args.size) ∧
      page.nextCursor = if args.size < rows.length then some (strOfInt (offset + args.size : Nat))
        else none := by
  have hpage : (rows.take (args.size + 1)).take args.size = rows.take args.size := by
    rw [List.take_take, Nat.min_eq_left (by omega)]
  have hmore : args.size < (rows.take (args.size + 1)).length ↔ args.size < rows.length := by
    rw [List.length_take]
    omega
  simp only [ToolRequest.listPage, hcursor, bind, Except.bind, pure, Except.pure,
    Int.toNat_natCast, ← hrows]
  exact ⟨_, rfl, congrArg (pageItems db.quarantine (request.canDiscover p db)) hpage,
    if_congr hmore rfl rfl⟩

theorem follow_of_page {cursor : Option String} {page : ListPage} (fuel : Nat)
    (h : request.listPage p table engine db args cursor = .ok page) :
    request.followCursor p table engine db args (fuel + 1) cursor =
      match page.nextCursor with
      | none => some [page]
      | some next => (request.followCursor p table engine db args fuel (some next)).map
          (page :: ·) := by
  simp only [ToolRequest.followCursor, h, Except.toOption, bind, Option.bind]

theorem follow_from (request : ToolRequest) (fuel : Nat) :
    ∀ {cursor : Option String} {offset : Nat} {rows : List CapabilityRow},
    table.intText p.chars.isSpace p.repr (optOr cursor "0").toList = .ok (offset : Int) →
    rows = (engine.arrange (db.capabilities.rows.filter args.selects)).drop offset →
    rows.length < fuel → ∃ pages,
      request.followCursor p table engine db args fuel cursor = some pages ∧
        pages.flatMap (·.items) = pageItems db.quarantine (request.canDiscover p db) rows := by
  induction fuel with
  | zero => intro _ _ _ _ _ hfuel; omega
  | succ fuel ih =>
      intro cursor offset rows hcursor hrows hfuel
      obtain ⟨page, hpage, hhead, hnext⟩ := list_page_eq request hcursor hrows
      by_cases hmore : args.size < rows.length
      · -- the rest is shorter, because a page takes at least one row
        have hsize := args.size_pos
        obtain ⟨pages, hfollow, hitems⟩ := ih (cursor_offset (offset + args.size))
          (by rw [← List.drop_drop, ← hrows]) (by rw [List.length_drop]; omega)
        rw [if_pos hmore] at hnext
        refine ⟨page :: pages, ?_, ?_⟩
        · simp only [follow_of_page fuel hpage, hnext, hfollow, Option.map_some]
        · rw [List.flatMap_cons, hhead, hitems, ← page_items_append, List.take_append_drop]
      · rw [if_neg hmore] at hnext
        refine ⟨[page], by simp only [follow_of_page fuel hpage, hnext], ?_⟩
        rw [List.flatMap_singleton, hhead, List.take_of_length_le (by omega)]

theorem follow_of_le {cursor : Option String} {pages : List ListPage} {fuel more : Nat}
    (h : request.followCursor p table engine db args fuel cursor = some pages)
    (hle : fuel ≤ more) : request.followCursor p table engine db args more cursor = some pages := by
  induction fuel generalizing more cursor pages with
  | zero => cases h
  | succ fuel ih =>
      obtain ⟨more, rfl⟩ : ∃ n, more = n + 1 := ⟨more - 1, by omega⟩
      cases hread : request.listPage p table engine db args cursor with
      | error text => simp [ToolRequest.followCursor, hread, Except.toOption, bind] at h
      | ok page =>
          rw [follow_of_page _ hread] at h ⊢
          cases hnext : page.nextCursor with
          | none => simpa only [hnext] using h
          | some next =>
              simp only [hnext, Option.map_eq_some_iff] at h ⊢
              obtain ⟨rest, hrest, hpages⟩ := h
              exact ⟨rest, ih hrest (by omega), hpages⟩

/-- **A whole listing.** Following `nextCursor` from the start ends, however short or empty its
pages are, and the pages together show each row that the filters select, that is not held and that
may be discovered exactly once, and no other. -/
theorem listing_visits_once (p : Platform) (table : DigitTable) (engine : ListEngine)
    (request : ToolRequest) (db : Database) (args : ListArgs) : ∃ pages : List ListPage,
      (∀ fuel, db.capabilities.rows.length < fuel →
        request.followCursor p table engine db args fuel none = some pages) ∧
      ((pages.flatMap (·.items)).map (·.1.uri)).Nodup ∧
      ∀ cap locked, (cap, locked) ∈ pages.flatMap (·.items) ↔
        (∃ row ∈ db.capabilities, row.cap = cap ∧ args.selects row = true) ∧
          capguardIsHeld db.quarantine cap = false ∧
          request.canDiscover p db cap = (true, locked) := by
  have hstart : table.intText p.chars.isSpace p.repr (optOr none "0").toList =
      .ok ((0 : Nat) : Int) := cursor_offset 0
  let selected := db.capabilities.rows.filter args.selects
  have hperm := engine.perm selected
  have hshorter : (engine.arrange selected).length ≤ db.capabilities.rows.length := by
    rw [hperm.length_eq]
    exact List.length_filter_le _ _
  obtain ⟨pages, hfollow, hitems⟩ := follow_from request (db.capabilities.rows.length + 1) hstart
    (List.drop_zero (l := engine.arrange selected)).symm (by omega)
  refine ⟨pages, fun fuel hfuel => follow_of_le hfollow hfuel, ?_, fun cap locked => ?_⟩
  · -- rows of the table have addresses of their own
    have huris : (selected.map (·.cap.uri)).Nodup := by
      refine List.pairwise_map.mpr (db.capabilities.unique.sublist List.filter_sublist |>.imp ?_)
      exact fun hfree hsame => hfree (.inr (.inl hsame))
    rw [hitems]
    exact page_items_nodup ((hperm.map _).nodup_iff.mpr huris)
  · have hselected : (∃ row ∈ engine.arrange selected, row.cap = cap) ↔
        ∃ row ∈ db.capabilities, row.cap = cap ∧ args.selects row = true := by
      constructor
      · intro ⟨row, hrow, hcap⟩
        have hmem := List.mem_filter.mp (hperm.mem_iff.mp hrow)
        exact ⟨row, hmem.1, hcap, hmem.2⟩
      · intro ⟨row, hrow, hcap, hselects⟩
        exact ⟨row, hperm.mem_iff.mpr (List.mem_filter.mpr ⟨hrow, hselects⟩), hcap⟩
    rw [hitems, mem_page_items, hselected]

end

end Capmesh
