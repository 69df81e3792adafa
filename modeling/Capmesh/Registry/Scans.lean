import Capmesh.Registry.PostIngest

/-!
# Post-ingest scans and the rows that were written

The scan loop goes over the discovered capabilities and looks each one up by its discovered
URI and tenant. A capability without a row there counts as a malware finding, and no file is
read. `scans_cover_iff` says when the scans nevertheless are about the rows the ingest
wrote: each of these stands at a discovered address, its file can be read, and the false
alarms are as many as the misses.
-/

namespace Capmesh

open Python Relational Execution

/-- Whether `scan_file` finds fault with a file. -/
def failsScan (p : Platform) (fs : FileSystem) (path : String) : Bool :=
  match scanFile p fs path with
  | .ok result => !result.passed.getD true
  | .error _ => false

/-- A row of this run under the URI of a catalog row, with the verdict on its file. -/
def ScannedAs (p : Platform) (fs : FileSystem) (start final : Mesh) (row : CapabilityRow) : Prop :=
  ∃ scan ∈ final.scanTable, scan ∉ start.scanTable ∧ scan.capabilityUri = row.cap.uri ∧
    ∃ result, scanFile p fs row.cap.sourcePath = .ok result ∧
      scan.scanPassed = result.passed.getD false

/-- Each row written for a capability of the batch is scanned, and the report counts the
capabilities whose file fails. -/
def ScansCover (p : Platform) (input : IngestInput p) (fs : FileSystem) (start : Mesh)
    (planned : List Capability) (final : Mesh) (findings : Option Nat) : Prop :=
  (∀ cap ∈ input.batch.capabilities, ∀ row,
    WrittenFor p input start.registry.db final.registry.db planned cap row →
      ScannedAs p fs start final row) ∧
  findings.getD 0 = input.batch.capabilities.countP fun cap => failsScan p fs cap.sourcePath

/-- The row the scan of a discovered capability reads. -/
def scannedRow (db : Database) (cap : Capability) : Option CapabilityRow :=
  db.capabilities.find? fun row => row.cap.uri = cap.uri && row.cap.tenantId = cap.tenantId

/-- The file that scan reads. -/
def scannedFile (db : Database) (cap : Capability) : Option String :=
  (scannedRow db cap).map (·.cap.sourcePath)

/-- The file of the row that an ingest leaves where a discovered capability is looked up. -/
def standingFile (p : Platform) (db : Database) (planned : List Capability) (cap : Capability) :
    Option String :=
  ((standsAt p db planned cap.uri).filter (·.1 = cap.tenantId)).map (·.2)

/-- Whether the scan of a capability counts as a finding. -/
def alarmed (p : Platform) (fs : FileSystem) (scanned : Option String) (cap : Capability) : Bool :=
  cap.uri ≠ "" && scanned.all (failsScan p fs)

section

variable {p : Platform} {input : IngestInput p} {fs : FileSystem} {now : String} {db : Database}
variable {used : String → Prop} {ids : FreshIds used} {cap : Capability} {caps : List Capability}
variable {state : Scanning} {mesh : Mesh} {row : CapabilityRow}

/-- The row of a scan. -/
def ScanRow.IsOf (p : Platform) (fs : FileSystem) (db : Database) (cap : Capability)
    (scan : ScanRow) : Prop :=
  scan.capabilityUri = cap.uri ∧ ∃ row result, scannedRow db cap = some row ∧
    scanFile p fs row.cap.sourcePath = .ok result ∧ scan.scanPassed = result.passed.getD false

/-- The scan loop on a catalog: the ids it has used, so that the next one is fresh. -/
structure ScanInvariant (ids : FreshIds used) (db : Database) (state : Scanning) : Prop where
  db : state.con.working.registry.db = db
  drawn : ∀ scan ∈ state.con.working.scanTable,
    used scan.id ∨ ∃ n < state.scanned, scan.id = ids.draw n
  counted : state.malwareFindings ≤ state.scanned

variable (now) in
theorem scan_capability_ok {id : String} {result : ScanResult}
    (hrow : scannedRow mesh.registry.db cap = some row)
    (hfile : scanFile p fs row.cap.sourcePath = .ok result)
    (hfresh : ∀ scan ∈ mesh.scanTable, scan.id ≠ id) :
    ∃ table scan, scanCapability p fs id now cap.uri cap.tenantId mesh =
        .ok (result, { mesh with scans := some table }) ∧
      scan.id = id ∧ scan.IsOf p fs mesh.registry.db cap ∧
      ∀ x, x ∈ table ↔ x ∈ mesh.scanTable ∨ x = scan := by
  have hinsert : (mesh.scanTable.insert? ⟨id, cap.tenantId, cap.uri, row.cap.sourcePath,
      result.fileHash.getD "sha256:unknown", result.passed.getD false, result.findings,
      now⟩).isSome :=
    Table.insert?_isSome_iff.mpr hfresh
  obtain ⟨table, htable⟩ := Option.isSome_iff_exists.mp hinsert
  unfold scannedRow at hrow
  refine ⟨table, _, ?_, rfl, ⟨rfl, row, result, hrow, hfile, rfl⟩, Table.mem_insert? htable⟩
  unfold scanCapability
  simp only [hrow, hfile, htable, constrained, bind, Except.bind]

/-- What one scan does: it adds a row when the capability has a row with a readable file, and counts
an alarm. -/
structure ScanStepped (p : Platform) (fs : FileSystem) (used : String → Prop) (db : Database)
    (caps : List Capability) (state next : Scanning) : Prop where
  findings : next.malwareFindings = state.malwareFindings +
    caps.countP fun cap => alarmed p fs (scannedFile db cap) cap
  kept : ∀ scan ∈ state.con.working.scanTable, scan ∈ next.con.working.scanTable
  only : ∀ scan ∈ next.con.working.scanTable, scan ∈ state.con.working.scanTable ∨
    ∃ cap ∈ caps, scan.IsOf p fs db cap
  made : ∀ cap ∈ caps, cap.uri ≠ "" → ∀ row result, scannedRow db cap = some row →
    scanFile p fs row.cap.sourcePath = .ok result →
    ∃ scan ∈ next.con.working.scanTable, ¬ used scan.id ∧ scan.IsOf p fs db cap

variable (p fs now cap) in
theorem scan_step_ok (h : ScanInvariant ids db state) :
    ScanInvariant ids db (scanStep p fs ids.draw now state cap) ∧
      ScanStepped p fs used db [cap] state (scanStep p fs ids.draw now state cap) := by
  have hdrawn : ∀ scan ∈ state.con.working.scanTable,
      used scan.id ∨ ∃ n < state.scanned + 1, scan.id = ids.draw n := by
    intro scan hscan
    refine (h.drawn scan hscan).imp_right ?_
    rintro ⟨n, hn, hid⟩
    exact ⟨n, by omega, hid⟩
  have hcounted : ∀ passed : Bool,
      state.malwareFindings + (if passed = true then 0 else 1) ≤ state.scanned + 1 := by
    intro passed
    have hcounted := h.counted
    split <;> omega
  by_cases huri : cap.uri = ""
  · simp only [scanStep, huri, if_true]
    exact ⟨h, by simp [alarmed, huri], fun _ hscan => hscan, fun _ hscan => .inl hscan,
      fun other hother hne => absurd (List.mem_singleton.mp hother ▸ huri) hne⟩
  · have hdb : (state.con.executescript Mesh.ensureScanTable).working.registry.db = db := h.db
    unfold scanStep
    rw [if_neg huri]
    dsimp only
    cases hrow : scannedRow db cap with
    | none =>
        have hscan : scanCapability p fs (ids.draw state.scanned) now cap.uri cap.tenantId
            (state.con.executescript Mesh.ensureScanTable).working =
            .ok (scanError "Capability not found",
              (state.con.executescript Mesh.ensureScanTable).working) := by
          unfold scannedRow at hrow
          simp only [scanCapability, hdb, hrow]
        simp only [hscan]
        refine ⟨⟨h.db, hdrawn, hcounted _⟩, ?_, fun _ hscan => hscan, fun _ hscan => .inl hscan, ?_⟩
        · simp [alarmed, scannedFile, huri, hrow, scanError]
        · intro other hother _ row result hfound
          rw [List.mem_singleton.mp hother, hrow] at hfound
          cases hfound
    | some row =>
        cases hfile : scanFile p fs row.cap.sourcePath with
        | error failure =>
            have hscan : scanCapability p fs (ids.draw state.scanned) now cap.uri cap.tenantId
                (state.con.executescript Mesh.ensureScanTable).working = .error failure := by
              unfold scannedRow at hrow
              simp only [scanCapability, hdb, hrow, hfile, bind, Except.bind]
            simp only [hscan]
            refine ⟨⟨h.db, hdrawn, Nat.le_succ_of_le h.counted⟩, ?_, fun _ hscan => hscan,
              fun _ hscan => .inl hscan, ?_⟩
            · simp [alarmed, scannedFile, hrow, failsScan, hfile]
            · intro other hother _ found result hfound hok
              rw [List.mem_singleton.mp hother, hrow] at hfound
              cases hfound
              rw [hfile] at hok
              cases hok
        | ok result =>
            have hfresh : ∀ scan ∈ (state.con.executescript
                Mesh.ensureScanTable).working.scanTable, scan.id ≠ ids.draw state.scanned := by
              intro scan hscan hid
              rcases h.drawn scan hscan with hused | ⟨n, hn, hn'⟩
              · exact ids.fresh _ (hid ▸ hused)
              · exact absurd (ids.injective (hn'.symm.trans hid)) hn.ne
            have hfound : scannedRow (state.con.executescript
                Mesh.ensureScanTable).working.registry.db cap = some row := by
              rw [hdb]
              exact hrow
            obtain ⟨table, scan, hscan, hid, hof, hmem⟩ := scan_capability_ok now hfound hfile hfresh
            simp only [hscan]
            rw [hdb] at hof
            have hnew : scan ∈ table := (hmem scan).mpr (.inr rfl)
            refine ⟨⟨h.db, fun x hx => ?_, hcounted _⟩, ?_, fun x hx => (hmem x).mpr (.inl hx),
              fun x hx => ?_, fun other hother _ _ _ _ _ => ?_⟩
            · rcases (hmem x).mp hx with hold | rfl
              · exact hdrawn x hold
              · exact .inr ⟨state.scanned, by simp, hid⟩
            · simp only [List.countP_singleton, alarmed, scannedFile, hrow, Option.map_some,
                Option.all_some, failsScan, hfile]
              cases result.passed.getD true <;> simp [huri]
            · rcases (hmem x).mp hx with hold | rfl
              · exact .inl hold
              · exact .inr ⟨cap, by simp, hof⟩
            · rw [List.mem_singleton.mp hother]
              exact ⟨scan, hnew, hid ▸ ids.fresh _, hof⟩

variable (p fs now caps) in
theorem scan_run_ok (h : ScanInvariant ids db state) :
    ScanInvariant ids db (run (scanStep p fs ids.draw now) state caps) ∧
      ScanStepped p fs used db caps state (run (scanStep p fs ids.draw now) state caps) := by
  induction caps generalizing state with
  | nil => exact ⟨h, by simp [run], fun _ hscan => hscan, fun _ hscan => .inl hscan, by simp⟩
  | cons cap caps ih =>
      obtain ⟨hinvariant, hstep⟩ := scan_step_ok p fs now cap h
      obtain ⟨hend, hrest⟩ := ih hinvariant
      refine ⟨hend, ?_, fun scan hscan => hrest.kept scan (hstep.kept scan hscan),
        fun scan hscan => ?_,
        fun other hother huri row result hrow hfile => ?_⟩
      · show (run (scanStep p fs ids.draw now) (scanStep p fs ids.draw now state cap)
          caps).malwareFindings = _
        rw [hrest.findings, hstep.findings, List.countP_singleton, List.countP_cons]
        omega
      · rcases hrest.only scan hscan with hscan | ⟨other, hother, hof⟩
        · rcases hstep.only scan hscan with hold | ⟨other, hother, hof⟩
          · exact .inl hold
          · exact .inr ⟨other, by simp [List.mem_singleton.mp hother], hof⟩
        · exact .inr ⟨other, List.mem_cons_of_mem _ hother, hof⟩
      · rcases List.mem_cons.mp hother with rfl | hother
        · obtain ⟨scan, hscan, hnew, hof⟩ :=
            hstep.made other (by simp) huri row result hrow hfile
          exact ⟨scan, hrest.kept scan hscan, hnew, hof⟩
        · exact hrest.made other hother huri row result hrow hfile

variable (p fs now caps) in
theorem scan_pass_ok {start : Mesh}
    (ids : FreshIds fun id => ∃ row ∈ start.scanTable, row.id = id)
    (hscans : mesh.scans = start.scans) :
    let result := scanPass p fs ids.draw now caps (.settled mesh)
    result.2.getD 0 =
      caps.countP (fun cap => alarmed p fs (scannedFile mesh.registry.db cap) cap) ∧
    (∀ scan ∈ result.1.working.scanTable, scan ∉ start.scanTable →
      ∃ cap ∈ caps, scan.IsOf p fs mesh.registry.db cap) ∧
    ∀ cap ∈ caps, cap.uri ≠ "" → ∀ row verdict, scannedRow mesh.registry.db cap = some row →
      scanFile p fs row.cap.sourcePath = .ok verdict →
      ∃ scan ∈ result.1.working.scanTable, scan ∉ start.scanTable ∧
        scan.IsOf p fs mesh.registry.db cap := by
  have htable : mesh.scanTable = start.scanTable := by
    unfold Mesh.scanTable
    rw [hscans]
  have hstart : ScanInvariant ids mesh.registry.db ⟨.settled mesh, 0, 0⟩ :=
    ⟨rfl, fun scan hscan => .inl ⟨scan, htable ▸ hscan, rfl⟩, le_rfl⟩
  obtain ⟨hend, hstepped⟩ := scan_run_ok p fs now caps hstart
  generalize hstate : run (scanStep p fs ids.draw now) ⟨.settled mesh, 0, 0⟩ caps = state at *
  have hworking : (scanPass p fs ids.draw now caps (.settled mesh)).1.working =
      state.con.working := by
    unfold scanPass
    rw [hstate]
    dsimp only
    split <;> rfl
  have hfindings : (scanPass p fs ids.draw now caps (.settled mesh)).2.getD 0 =
      state.malwareFindings := by
    unfold scanPass
    rw [hstate]
    dsimp only
    have hcounted := hend.counted
    split
    · show 0 = state.malwareFindings
      omega
    · rfl
  dsimp only
  rw [hfindings, hworking, hstepped.findings]
  refine ⟨by simp, fun scan hscan hnew => ?_, fun cap hcap huri row verdict hrow hfile => ?_⟩
  · exact (hstepped.only scan hscan).resolve_left fun hold => hnew (htable ▸ hold)
  · obtain ⟨scan, hscan, hunused, hof⟩ := hstepped.made cap hcap huri row verdict hrow hfile
    exact ⟨scan, hscan, fun hold => hunused ⟨scan, hold, rfl⟩, hof⟩

theorem scanned_row_some (h : scannedRow db cap = some row) :
    row ∈ db.capabilities ∧ row.cap.uri = cap.uri ∧ row.cap.tenantId = cap.tenantId := by
  obtain ⟨hrow, hmatch⟩ := Table.find?_some h
  simp only [Bool.and_eq_true, decide_eq_true_eq] at hmatch
  exact ⟨hrow, hmatch⟩

theorem scanned_row_eq (hrow : row ∈ db.capabilities) (huri : row.cap.uri = cap.uri)
    (htenant : row.cap.tenantId = cap.tenantId) : scannedRow db cap = some row := by
  cases hfound : scannedRow db cap with
  | none =>
      have hnone := Table.find?_none hfound hrow
      simp [huri, htenant] at hnone
  | some found =>
      obtain ⟨hfoundRow, hfoundUri, -⟩ := scanned_row_some hfound
      rw [Database.eq_of_uri hfoundRow hrow (hfoundUri.trans huri.symm)]

theorem scanned_file_eq (cap : Capability) : scannedFile db cap =
    (((db.capabilityAt cap.uri).map fun row => (row.cap.tenantId, row.cap.sourcePath)).filter
      (·.1 = cap.tenantId)).map (·.2) := by
  unfold scannedFile
  ext path
  simp only [Option.map_eq_some_iff, Option.filter_eq_some_iff, decide_eq_true_eq]
  constructor
  · rintro ⟨row, hrow, rfl⟩
    obtain ⟨hmem, huri, htenant⟩ := scanned_row_some hrow
    exact ⟨_, ⟨⟨row, huri ▸ Database.capability_at_eq hmem, rfl⟩, htenant⟩, rfl⟩
  · rintro ⟨-, ⟨⟨row, hat, rfl⟩, htenant⟩, rfl⟩
    obtain ⟨hmem, huri⟩ := Database.capability_at_some hat
    exact ⟨row, scanned_row_eq hmem huri htenant, rfl⟩

/-- Two counts agree when what each counts beyond the other is as much. -/
theorem count_eq_iff (a b : Capability → Bool) (caps : List Capability) :
    caps.countP a = caps.countP b ↔
      caps.countP (fun cap => a cap && !b cap) = caps.countP fun cap => b cap && !a cap := by
  have hsplit : ∀ a b : Capability → Bool, caps.countP a =
      caps.countP (fun cap => a cap && b cap) + caps.countP fun cap => a cap && !b cap := by
    intro a b
    induction caps with
    | nil => rfl
    | cons cap caps ih =>
        simp only [List.countP_cons]
        cases a cap <;> cases b cap <;> simp <;> omega
  have hboth : caps.countP (fun cap => a cap && b cap) =
      caps.countP fun cap => b cap && a cap := by simp only [Bool.and_comm]
  have ha := hsplit a b
  have hb := hsplit b a
  omega

theorem landing_uri_ne_empty {earlier later : List Capability} {e : Capability}
    (hdb : db.Normalized) (hplanned : Planned p (earlier ++ e :: later)) :
    landingUri db earlier e ≠ "" := by
  have haddressed : isAddressed (landingUri db earlier e) = true := by
    rcases landing_uri_cases db earlier e with hown | ⟨r, hr, -, -, hr'⟩
    · rw [hown]
      exact hplanned.addressed (by simp)
    · rw [hr']
      exact hdb r hr
  intro hempty
  rw [hempty] at haddressed
  exact absurd haddressed (by decide)

/-- The scans of an ingest cover the rows it wrote, with a true count, exactly when each of these
rows stands at the discovered URI and tenant of some capability and its file can be read, and as
many capabilities raise a false alarm as are missed, by the files of the rows that the plan and the
stored rows leave at the discovered addresses. -/
theorem scans_cover_iff {mesh final : Mesh} {post : PostIngest mesh}
    {outcome : Changes × Option Nat} {planned : List Capability}
    (hdb : mesh.registry.db.Normalized)
    (h : ingestIndex p mesh input post = (final, .ok outcome))
    (hplan : plan p input mesh.registry.db.capabilities = .ok planned) :
    ScansCover p input post.fs mesh planned final outcome.2 ↔
      (∀ earlier e later, planned = earlier ++ e :: later →
        (∀ d ∈ later, d.uri ≠ landingUri mesh.registry.db earlier e) →
        (∃ cap ∈ input.batch.capabilities, cap.uri = landingUri mesh.registry.db earlier e ∧
          cap.tenantId = e.tenantId) ∧
        ∃ result, scanFile p post.fs e.sourcePath = .ok result) ∧
      (input.batch.capabilities.countP fun cap =>
          alarmed p post.fs (standingFile p mesh.registry.db planned cap) cap &&
            !failsScan p post.fs cap.sourcePath) =
        input.batch.capabilities.countP fun cap =>
          failsScan p post.fs cap.sourcePath &&
            !alarmed p post.fs (standingFile p mesh.registry.db planned cap) cap := by
  obtain ⟨db, hingest, hpost⟩ := ingest_index_ok h
  obtain ⟨hrows, hscans⟩ := post_ingest_leaves input post (mesh.onCatalog fun _ => db)
  have honCatalog : (mesh.onCatalog fun _ => db).scans = mesh.scans := rfl
  obtain ⟨hfindings, honly, hmade⟩ := scan_pass_ok p post.fs post.now input.batch.capabilities
    post.scanIds honCatalog
  have hreported : outcome.2 = (scanPass p post.fs post.scanIds.draw post.now
      input.batch.capabilities (.settled (mesh.onCatalog fun _ => db))).2 := by
    rw [← show (postIngest input post (mesh.onCatalog fun _ => db)).2 = outcome.2 by rw [hpost]]
    rfl
  rw [hpost] at hrows hscans
  have htable : final.scanTable = (scanPass p post.fs post.scanIds.draw post.now
      input.batch.capabilities (.settled (mesh.onCatalog fun _ => db))).1.working.scanTable := by
    unfold Mesh.scanTable
    rw [hscans]
  rw [← htable] at honly hmade
  rw [← hreported] at hfindings
  unfold ScansCover
  have hstanding : scannedFile db = standingFile p mesh.registry.db planned := by
    funext cap
    rw [scanned_file_eq, ingest_stands hdb hingest hplan, standingFile]
  rw [hfindings, show (mesh.onCatalog fun _ => db).registry.db = db from rfl, hstanding]
  refine and_congr ?_ (count_eq_iff _ _ _)
  constructor
  · intro hscanned earlier e later hsplit hfree
    subst hsplit
    obtain ⟨hcolumns, hwritten⟩ := ingest_written hdb hingest hplan
    obtain ⟨row, hrow, hkey⟩ := hwritten hfree
    obtain ⟨source, hsource, metadata, horigin⟩ := plan_origin hplan (e := e) (by simp)
    have hcolumns := (hcolumns row hrow hkey).1
    obtain ⟨scan, hscan, hnew, hscanUri, result, hresult, -⟩ := hscanned source hsource row
      ⟨hrows ▸ hrow, e, by simp, by rw [horigin], hkey⟩
    obtain ⟨cap, hcap, hcapUri, found, -, hfound, -⟩ := honly scan hscan hnew
    obtain ⟨hfoundRow, hfoundUri, hfoundTenant⟩ := scanned_row_some hfound
    have hsame : found = row := Database.eq_of_uri hfoundRow hrow
      (hfoundUri.trans (hcapUri.symm.trans hscanUri))
    refine ⟨⟨cap, hcap, ?_, ?_⟩, result, hcolumns.sourcePath ▸ hresult⟩
    · rw [← hcolumns.uri, ← hscanUri, hcapUri]
    · rw [← hcolumns.tenantId, ← hfoundTenant, hsame]
  · rintro hcovered source hsource row ⟨hrow, e, he, heffective, hkey⟩
    obtain ⟨earlier, later, rfl⟩ := List.append_of_mem he
    have hrow : row ∈ db.capabilities := hrows ▸ hrow
    obtain ⟨hcolumns, hfree⟩ := (ingest_written hdb hingest hplan).1 row hrow hkey
    obtain ⟨⟨cap, hcap, huri, htenant⟩, result, hresult⟩ := hcovered earlier e later rfl hfree
    have hscanned : scannedRow db cap = some row := scanned_row_eq hrow
      (hcolumns.uri.trans huri.symm) (hcolumns.tenantId.trans htenant.symm)
    rw [← hcolumns.sourcePath] at hresult
    obtain ⟨scan, hscan, hnew, hscanUri, found, verdict, hfound, hverdict, hpassed⟩ := hmade cap
      hcap (huri ▸ landing_uri_ne_empty hdb (plan_ok hplan)) row result hscanned hresult
    cases hscanned.symm.trans hfound
    exact ⟨scan, hscan, hnew, hscanUri.trans (huri.trans hcolumns.uri.symm), verdict, hverdict,
      hpassed⟩

end

/-- A registry without rows. -/
def bareMesh : Mesh := ⟨⟨.empty, true, [], none, none, none⟩, none⟩

/-- The passes on it, in a file system in which every file is empty. -/
def emptyFiles : PostIngest bareMesh where
  fs _ := .regular []
  now := "2026-01-01T00:00:00Z"
  scanIds := lengthIds _ fun n => by
    rintro ⟨row, hrow, -⟩
    cases hrow
  dependencyIds := lengthIds _ fun n => by
    rintro ⟨row, hrow, -⟩
    cases hrow
  embed _ _ := none

/-- The notes skill is discovered at one URI and filed at another: its clean file counts as a
malware finding. -/
theorem scans_cover_counterexample :
    ¬ ∀ (p : Platform) (input : IngestInput p) (mesh final : Mesh) (post : PostIngest mesh)
      (outcome : Changes × Option Nat) (planned : List Capability),
      mesh.registry.db.Normalized → ingestIndex p mesh input post = (final, .ok outcome) →
      plan p input mesh.registry.db.capabilities = .ok planned →
      ScansCover p input post.fs mesh planned final outcome.2 := by
  intro hclaim
  have hok := ingest_index_of_outcome (show
    (ingestIndex .sample bareMesh (notesInput "sha256:v1" (by decide)) emptyFiles).2.toOption =
      some (⟨1, 0, 0, 0, false, 0, 0, false⟩, some 1) by decide +kernel)
  have hplan : plan .sample (notesInput "sha256:v1" (by decide)) bareMesh.registry.db.capabilities =
      .ok [effective .sample [] .empty (notesSkill "sha256:v1")] :=
    merge_by_effective_uri_singleton _
  have hcount := (hclaim _ _ _ _ _ _ _ (fun row hrow => by cases hrow) hok hplan).2
  exact absurd hcount (by decide +kernel)

/-- The notes skill from a capability manifest that gives it a URI in a user namespace. -/
def filedNotes : Capability :=
  { notesSkill "sha256:v1" with
    uri := "cap://user/asg/alice/private/skill/notes@0.1.0"
    entrypoint := "cap.json", sourcePath := "/asg-os/plugins/notes/cap.json"
    sourceKind := "cap_manifest" }

/-- An ingest of that skill. -/
def filedInput : IngestInput .sample :=
  .bare (.single filedNotes (by decide) (Capability.unlisted rfl))

/-- It is scanned where it was filed. -/
theorem scans_cover_iff_filed :
    ScansCover .sample filedInput (fun _ => .regular []) bareMesh
      [effective .sample [] .empty filedNotes]
      (ingestIndex .sample bareMesh filedInput emptyFiles).1 (some 0) := by
  have hok := ingest_index_of_outcome (show
    (ingestIndex .sample bareMesh filedInput emptyFiles).2.toOption =
      some (⟨1, 0, 0, 0, false, 0, 0, false⟩, some 0) by decide +kernel)
  have hplan : plan .sample filedInput bareMesh.registry.db.capabilities =
      .ok [effective .sample [] .empty filedNotes] := merge_by_effective_uri_singleton _
  refine (scans_cover_iff (fun row hrow => by cases hrow) hok hplan).mpr ⟨?_, by decide +kernel⟩
  intro earlier e later hsplit hfree
  obtain ⟨rfl, rfl⟩ := split_of_singleton hsplit
  have haddress : filedNotes.uri = (effective .sample [] .empty filedNotes).uri ∧
      filedNotes.tenantId = (effective .sample [] .empty filedNotes).tenantId := by decide +kernel
  exact ⟨⟨filedNotes, List.mem_cons_self, haddress⟩, scanBytes .sample [], rfl⟩

end Capmesh
