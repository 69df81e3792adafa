import Capmesh.Model.Capability

/-!
# Packages and paths

What `manifest.py` reads off the path of a capability file: the package that owns it
(`package_name_for`), the directory of the package, the kind and the system of the source.
An absolute path is the list of its components below the root directory.
-/

namespace Capmesh

open Python

/-- `PACKAGE_COMPONENT_DIRS`. -/
def packageComponentDirs : List String := ["skills", "agents", "commands", "references"]

/-- The text of an absolute path. -/
def pathText (path : List String) : String := "/" ++ join "/" path

/-- `path.name`. -/
def pathName (path : List String) : String := path.getLast?.getD ""

/-- `path.parent`; the parent of the root directory is the root directory. -/
def pathParent (path : List String) : List String := path.dropLast

/-- `path.stem`. -/
def pathStem (path : List String) : String :=
  String.ofList ((pathName path).toList.take
    ((pathName path).toList.length - (pathSuffix (pathName path)).toList.length))

/-- `path.relative_to(root).parts`. -/
def relativeTo (path root : List String) : Except Failure (List String) :=
  if root.isPrefixOf path then .ok (path.drop root.length)
  else .error (.value (pathText path ++ " is not in the subpath of " ++ pathText root))

/-- The positions at which the component directories first occur. -/
def componentPositions (rel : List String) : List Nat :=
  (packageComponentDirs.filter rel.contains).map (rel.idxOf ·)

/-- The owner of a file below a plugin cache: the component two before its kind. -/
def cachePackage (path rel : List String) : Option String :=
  if (pathName path = ".mcp.json" || pathName path = "cap.json") && 3 ≤ rel.length then
    rel[rel.length - 3]?
  else match (componentPositions rel).min? with
    | some index =>
        if 2 ≤ index then rel[index - 2]?
        else if 1 ≤ index then rel[index - 1]?
        else rel.head?
    | none => rel.head?

/-- The components of an authored package joined, after the package that the root itself is. -/
def joinedPackage (root parts : List String) : String :=
  join "-" (if pathName (pathParent root) = "plugins" && pathName root ≠ "plugins" then
    pathName root :: parts else parts)

/-- The owner of a file below the authored plugins. -/
def authoredPackage (isFile : List String → Bool) (path root rel : List String) : Option String :=
  if pathName (pathParent root) = "plugins" && isFile (root ++ [".claude-plugin", "plugin.json"])
  then some (pathName root)
  else if (pathName path = ".mcp.json" || pathName path = "cap.json") && 2 ≤ rel.length then
    some (joinedPackage root rel.dropLast)
  else match (packageComponentDirs ++ [".claude-plugin"]).find? fun marker =>
      rel.contains marker && 1 ≤ rel.idxOf marker with
    | some marker => some (joinedPackage root (rel.take (rel.idxOf marker)))
    | none => rel.head?

/-- `package_name_for`; `isFile` says which files exist. -/
def packageNameFor (isFile : List String → Bool) (path root : List String) :
    Except Failure (Option String) :=
  if root.contains "cache" then do
    let rel ← relativeTo path root
    .ok (cachePackage path rel)
  else if root.contains "plugins" ||
      (pathName root = "asg-os-plugins" && pathName (pathParent root) = "capability-roots") then do
    let rel ← relativeTo path root
    .ok (authoredPackage isFile path root rel)
  else do
    let registered ← if pathName (pathParent root) = "skill-registry" then do
        let rel ← relativeTo path root
        .ok (rel.head?.any packageComponentDirs.contains)
      else .ok false
    if registered then .ok (some (pathName root))
    else if pathName root = "skill-registry" then do
      let rel ← relativeTo path root
      .ok (if 3 ≤ rel.length && (rel[1]?).any packageComponentDirs.contains then rel.head?
        else none)
    else .ok none

/-- `package_path_for`. -/
def packagePathFor (path : List String) : List String :=
  match (packageComponentDirs ++ [".claude-plugin"]).find? path.contains with
  | some marker => path.take (path.idxOf marker)
  | none => pathParent path

/-- `source_kind_for`. -/
def sourceKindFor (path : List String) : String :=
  if pathName path = "SKILL.md" then "skill"
  else if path.contains "agents" && pathSuffix (pathName path) = ".md" then "agent"
  else if path.contains "commands" && pathSuffix (pathName path) = ".md" then "command"
  else if pathName path = "plugin.json" then "plugin_manifest"
  else if pathName path = ".mcp.json" then "mcp_manifest"
  else if pathName path = "cap.json" then "cap_manifest"
  else "reference"

/-- `source_system_for`. -/
def sourceSystemFor (path : List String) : String :=
  let text := (pathText path).toList
  let below := fun place : String => contains text place.toList
  if below "/GitHub/asg-os/plugins/" || below "/capability-roots/asg-os-plugins/" then
    "asg-os.plugins"
  else if below "/.agents/skill-registry/" then "agents.skill-registry"
  else if below "/.codex/plugins/cache/" then "codex.plugin-cache"
  else if below "/.codex/skills/" then "codex.skills"
  else if below "/.claude/plugins/cache/" then "claude.plugin-cache"
  else "local"

end Capmesh
