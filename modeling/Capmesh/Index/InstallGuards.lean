import Capmesh.Discovery.Packages
import Capmesh.Execution.Contest
import Capmesh.Index.Merge

/-!
# The install guards

The admission of a discovered batch (`install_policy.py` and `_enforce_install_guards`): every body
has to be servable from a configured root, and no capability may be registered from two source
roots. The batch is judged from left to right, each capability against the catalog and against
those admitted before it. Read `enforce_install_guards_eq` first: the guards are a contest, and
`admission_fair_iff` says for which batches its outcome does not depend on the order.
-/

namespace Capmesh

open Python Execution

/-- The file system as the guards see it. A resolved path is the list of its components. -/
structure PackageFiles where
  /-- `_normalized(path)`. -/
  normalized : String → List String
  /-- `_normalized(Path(package_path) / entrypoint)`. -/
  normalizedBody : String → String → List String
  /-- `path.is_file()`. -/
  isFile : List String → Bool

/-- Why the guards turn a capability away. -/
inductive InstallRefusal where
  /-- `InstallPolicyError`: the whole batch is refused. -/
  | policy (text : String)
  /-- `SupersededCapability`: the capability is left out. -/
  | superseded (text : String)
  deriving DecidableEq, Repr

/-- The identity of a package root. -/
inductive PackageRoot where
  /-- The components from the `capability-roots` directory of a release on. -/
  | release (parts : List String)
  /-- A resolved path outside the releases. -/
  | resolved (parts : List String)
  deriving DecidableEq, Repr

def PackageRoot.text : PackageRoot → String
  | .release parts => join "/" parts
  | .resolved parts => pathText parts

/-- The components from the last occurrence of a directory on. -/
def fromLast (segment : String) : List String → Option (List String)
  | [] => none
  | part :: parts =>
      match fromLast segment parts with
      | some found => some found
      | none => if part = segment then some (part :: parts) else none

section

variable (p : Platform) (files : PackageFiles)

/-- `_release_invariant`. -/
def releaseInvariant (path : String) : PackageRoot :=
  match fromLast "capability-roots" (files.normalized path) with
  | some parts => .release parts
  | none => .resolved (files.normalized path)

/-- `_is_authority_managed_anchor`. -/
def isAuthorityManagedAnchor (path : String) : Bool :=
  let resolved := files.normalized path
  (pathName resolved = "sha256" && pathName (pathParent resolved) = "content") ||
    (pathName resolved = "capmesh" && resolved.contains "releases")

/-- `_containing_root`, of a resolved path. -/
def containingRoot (target : List String) (roots : List String) : Option (List String) :=
  (roots.map files.normalized).find? (·.isPrefixOf target)

/-- `assert_body_resolvable`. -/
def assertBodyResolvable (packagePath entrypoint : String) (roots : List String) :
    Except InstallRefusal (List String) :=
  let package := pathText (files.normalized packagePath)
  let body := files.normalizedBody packagePath entrypoint
  if roots = [] then
    .error (.policy ("no capability roots are configured; refusing to admit " ++ package ++
      " because no root could ever serve it"))
  else if (entrypoint.toList.splitOn '/').contains "..".toList then
    .error (.policy ("capability entrypoint " ++ p.repr entrypoint ++
      " traverses upward out of its package (" ++ package ++ "); refusing to admit it"))
  else match containingRoot files body roots with
    | none =>
        .error (.policy ("capability body " ++ pathText body ++
          " is outside every configured capability root; configured roots are: " ++
          join ", " (roots.map fun root => pathText (files.normalized root)) ++
          ". Only content under a materialized root can be served by the authority, so admitting " ++
          "this row would register an unservable capability."))
    | some root =>
        if files.isFile body then .ok root
        else .error (.policy ("capability body is missing: " ++ pathText body ++
          " does not exist under capability root " ++ pathText root ++ " (package path " ++
          package ++ ", entrypoint " ++ p.repr entrypoint ++
          "); refusing to register a capability the authority cannot serve"))

/-- `_authority_rank`. -/
def authorityRank (path : String) : Nat :=
  let resolved := files.normalized path
  sourceAuthorityRank p (sourceSystemFor resolved) (pathText resolved)

/-- What the duplicate guard compares: the plugin and the name. -/
def Capability.installKey (cap : Capability) : String × String := (optOr cap.plugin "", cap.name)

/-- `assert_not_duplicate`: the plugin, the name, the package path and the URI of a capability
against those of the rows. -/
def assertNotDuplicate (cap : Capability) : List Capability → Except InstallRefusal Unit
  | [] => .ok ()
  | row :: rows =>
      if row.installKey ≠ cap.installKey then assertNotDuplicate cap rows
      else if isAuthorityManagedAnchor files row.packagePath then assertNotDuplicate cap rows
      else if releaseInvariant files row.packagePath = releaseInvariant files cap.packagePath then
        assertNotDuplicate cap rows
      else if authorityRank p files row.packagePath < authorityRank p files cap.packagePath then
        -- the canonical root takes the capability over
        assertNotDuplicate cap rows
      else if authorityRank p files cap.packagePath < authorityRank p files row.packagePath then
        .error (.superseded ("capability " ++ optOr cap.plugin "<none>" ++ "/" ++ cap.name ++
          " from " ++ pathText (files.normalized cap.packagePath) ++
          " is superseded by the higher-authority copy already registered as " ++
          orElse row.uri "<unknown uri>" ++ " from " ++
          (releaseInvariant files row.packagePath).text ++
          "; skipping the lower-authority copy"))
      else
        .error (.policy ("duplicate capability registration refused: plugin=" ++
          optOr cap.plugin "<none>" ++ " name=" ++ cap.name ++ " is already registered as " ++
          orElse row.uri "<unknown uri>" ++ " from package root " ++
          (releaseInvariant files row.packagePath).text ++ ", and the incoming copy " ++
          orElse cap.uri "<unknown uri>" ++ " comes from " ++
          (releaseInvariant files cap.packagePath).text ++ ". Two roots for one capability " ++
          "produce split versions and unservable rows; choose which root is canonical and " ++
          "remove the other."))

/-- The rows the duplicate guard reads from the catalog. -/
def registered (rows : List CapabilityRow) : List Capability :=
  (rows.map (·.cap)).filter (·.lifecycle ≠ .other "removed")

/-- The loop of `_enforce_install_guards`, after the capabilities admitted so far. -/
def guardBatch (existing : List Capability) (roots : List String) :
    List Capability → List Capability → Except Failure (List Capability)
  | admitted, [] => .ok admitted
  | admitted, cap :: rest =>
      match assertBodyResolvable p files cap.packagePath cap.entrypoint roots with
      | .error (.policy text) | .error (.superseded text) => .error (.value text)
      | .ok _ =>
          match assertNotDuplicate p files cap (existing ++ admitted) with
          | .error (.superseded _) => guardBatch existing roots admitted rest
          | .error (.policy text) => .error (.value text)
          | .ok () => guardBatch existing roots (admitted ++ [cap]) rest

/-- `_enforce_install_guards`. -/
def enforceInstallGuards (rows : List CapabilityRow) (roots : List String)
    (capabilities : List Capability) : Except Failure (List Capability) :=
  guardBatch p files (registered rows) roots [] capabilities

/-- The duplicate guard as a contest of package roots. -/
def rootContest : Contest Capability (String × String) PackageRoot where
  key := Capability.installKey
  root cap := releaseInvariant files cap.packagePath
  isSource cap := !isAuthorityManagedAnchor files cap.packagePath
  rank cap := authorityRank p files cap.packagePath

/-- The fate of a capability that meets only the configured roots and the catalog. -/
def catalogVerdict (rows : List CapabilityRow) (roots : List String) (cap : Capability) :
    Admission :=
  match assertBodyResolvable p files cap.packagePath cap.entrypoint roots with
  | .error _ => .refused
  | .ok _ => (rootContest p files).judge (registered rows) cap

end

section

variable {p : Platform} {files : PackageFiles} {cap : Capability}
  {existing seen batch : List Capability} {rows : List CapabilityRow} {roots : List String}

/-- What a check of the guards makes of a capability. -/
def InstallRefusal.admission : Except InstallRefusal Unit → Admission
  | .ok () => .admitted
  | .error (.superseded _) => .dropped
  | .error (.policy _) => .refused

theorem assert_not_duplicate_judge (p : Platform) (files : PackageFiles) (cap : Capability)
    (seen : List Capability) :
    InstallRefusal.admission (assertNotDuplicate p files cap seen) =
      (rootContest p files).judge seen cap := by
  induction seen with
  | nil => rfl
  | cons row seen ih =>
      have hskip : ¬ (rootContest p files).Rivals row cap →
          InstallRefusal.admission (assertNotDuplicate p files cap seen) =
            (rootContest p files).judge (row :: seen) cap := fun hnot => by
        rw [ih, Contest.judge_cons_of_not hnot]
      rw [assertNotDuplicate]
      split
      · rename_i hkey
        exact hskip fun hrival => hkey hrival.1
      rename_i hkey
      split
      · rename_i hanchor
        exact hskip fun hrival => by simpa [rootContest, hanchor] using hrival.2.1
      rename_i hanchor
      split
      · rename_i hroot
        exact hskip fun hrival => hrival.2.2.1 hroot
      rename_i hroot
      split
      · rename_i hlt
        exact hskip fun hrival => Nat.not_lt.mpr hrival.2.2.2 hlt
      rename_i hle
      have hrival : (rootContest p files).Rivals row cap :=
        ⟨not_not.mp hkey, by simpa [rootContest] using hanchor, hroot, Nat.le_of_not_lt hle⟩
      rw [Contest.judge_cons_of_rivals hrival]
      show InstallRefusal.admission (if authorityRank p files cap.packagePath <
        authorityRank p files row.packagePath then _ else _) =
          if authorityRank p files cap.packagePath < authorityRank p files row.packagePath then _
          else _
      split <;> rfl

theorem guard_batch_eq (admitted : List Capability) :
    (guardBatch p files (registered rows) roots admitted batch).toOption =
      (rootContest p files).admitAll (catalogVerdict p files rows roots) admitted batch := by
  induction batch generalizing admitted with
  | nil => rfl
  | cons cap batch ih =>
      rw [guardBatch, Contest.admit_all_cons, catalogVerdict]
      cases assertBodyResolvable p files cap.packagePath cap.entrypoint roots with
      | error refusal => cases refusal <;> rfl
      | ok root =>
          rw [← Contest.judge_append, ← assert_not_duplicate_judge]
          cases assertNotDuplicate p files cap (registered rows ++ admitted) with
          | ok _ => exact ih (admitted ++ [cap])
          | error refusal =>
              cases refusal with
              | policy text => rfl
              | superseded text => exact ih admitted

/-- The guards are a contest: `before` is the configured roots and the catalog. -/
theorem enforce_install_guards_eq (rows : List CapabilityRow) (roots : List String)
    (batch : List Capability) :
    (enforceInstallGuards p files rows roots batch).toOption =
      (rootContest p files).admitAll (catalogVerdict p files rows roots) [] batch :=
  guard_batch_eq []

/-- Every order of a batch raises, or all orders admit the same capabilities. -/
def OrderIndependent (p : Platform) (files : PackageFiles) (rows : List CapabilityRow)
    (roots : List String) (batch : List Capability) : Prop :=
  (∀ order : List Capability, order.Perm batch →
    ∃ failure, enforceInstallGuards p files rows roots order = .error failure) ∨
  ∃ kept : Capability → Prop, ∀ order : List Capability, order.Perm batch →
    ∃ admitted, enforceInstallGuards p files rows roots order = .ok admitted ∧
      ∀ cap, cap ∈ admitted ↔ kept cap

/-- No order admits two copies of one plugin and name from two source roots. -/
def OneSourceRoot (p : Platform) (files : PackageFiles) (rows : List CapabilityRow)
    (roots : List String) (batch : List Capability) : Prop :=
  ∀ order admitted : List Capability, order.Perm batch →
    enforceInstallGuards p files rows roots order = .ok admitted →
    ∀ a ∈ admitted, ∀ b ∈ admitted, a.installKey = b.installKey →
      isAuthorityManagedAnchor files a.packagePath = false →
      isAuthorityManagedAnchor files b.packagePath = false →
      releaseInvariant files a.packagePath = releaseInvariant files b.packagePath

theorem enforced_iff {order admitted : List Capability} :
    enforceInstallGuards p files rows roots order = .ok admitted ↔
      (rootContest p files).admitAll (catalogVerdict p files rows roots) [] order =
        some admitted := by
  rw [← enforce_install_guards_eq]
  cases enforceInstallGuards p files rows roots order <;> simp [Except.toOption]

theorem raised_iff {order : List Capability} :
    (∃ failure, enforceInstallGuards p files rows roots order = .error failure) ↔
      (rootContest p files).admitAll (catalogVerdict p files rows roots) [] order = none := by
  rw [← enforce_install_guards_eq]
  cases enforceInstallGuards p files rows roots order <;> simp [Except.toOption]

theorem order_independent_iff : OrderIndependent p files rows roots batch ↔
    (rootContest p files).OrderIndependent (catalogVerdict p files rows roots) batch := by
  unfold OrderIndependent Contest.OrderIndependent
  simp only [enforced_iff, raised_iff]

theorem one_source_root_iff : OneSourceRoot p files rows roots batch ↔
    (rootContest p files).OneRoot (catalogVerdict p files rows roots) batch := by
  unfold OneSourceRoot Contest.OneRoot
  simp only [enforced_iff, rootContest, Bool.not_eq_true']

/-- Admission does not depend on the order, and admits each plugin and name from one source root,
exactly when a capability is turned away by the configured roots or the catalog alone, or two
source roots share the highest authority for one plugin and name, or no source root stands against
another copy at all. -/
theorem admission_fair_iff (p : Platform) (files : PackageFiles) (rows : List CapabilityRow)
    (roots : List String) (batch : List Capability) :
    OrderIndependent p files rows roots batch ∧ OneSourceRoot p files rows roots batch ↔
      (∃ cap ∈ batch, catalogVerdict p files rows roots cap = .refused) ∨
      (rootContest p files).Tied (catalogVerdict p files rows roots) batch ∨
      (rootContest p files).Unrivalled (catalogVerdict p files rows roots) batch := by
  rw [order_independent_iff, one_source_root_iff]
  exact Contest.fair_iff

/-- A host whose paths have no links. -/
def plainFiles : PackageFiles where
  normalized path := ((path.toList.splitOn '/').filter (· ≠ [])).map String.ofList
  normalizedBody packagePath entrypoint :=
    (((packagePath ++ "/" ++ entrypoint).toList.splitOn '/').filter (· ≠ [])).map String.ofList
  isFile _ := true

/-- A copy of one skill, under a version and in a package. -/
def auditCopy (version packagePath : String) : Capability where
  uri := "cap://agent/asg/skill/global.kubernetes-audit@" ++ version
  capabilityType := .skill
  name := "kubernetes-audit"
  version
  title := "Kubernetes audit"
  description := ""
  packagePath
  entrypoint := "skills/kubernetes-audit/SKILL.md"
  sourcePath := packagePath ++ "/skills/kubernetes-audit/SKILL.md"
  sourceKind := "skill"
  sourceSystem := "local"
  canonicalKey := "skill/global.kubernetes-audit@" ++ version
  contentHash := version
  plugin := some "kubernetes-audit"

def auditMirror : Capability :=
  auditCopy "0.1.0" "/home/agent/.agents/skill-registry/kubernetes-audit"

def auditOriginal : Capability :=
  auditCopy "1.1.0" "/srv/capability-roots/asg-os-plugins/kubernetes-audit"

/-- A batch in the order of the addresses: the mirror comes first, and both copies are admitted. -/
theorem mirror_admitted_first : ¬ ∀ (p : Platform) (files : PackageFiles)
    (rows : List CapabilityRow) (roots : List String) (batch : List Capability),
    OrderIndependent p files rows roots batch ∧ OneSourceRoot p files rows roots batch := by
  intro h
  have hboth : (enforceInstallGuards .sample plainFiles []
      ["/home/agent/.agents/skill-registry", "/srv/capability-roots/asg-os-plugins"]
      [auditMirror, auditOriginal]).toOption = some [auditMirror, auditOriginal] := by
    decide +kernel
  have hroots := (h .sample plainFiles [] _ [auditMirror, auditOriginal]).2 _ _ (.refl _)
    (enforced_iff.mpr ((enforce_install_guards_eq _ _ _).symm.trans hboth))
    auditMirror (by simp) auditOriginal (by simp) (by decide +kernel) (by decide +kernel)
    (by decide +kernel)
  exact absurd hroots (by decide +kernel)

end

end Capmesh
