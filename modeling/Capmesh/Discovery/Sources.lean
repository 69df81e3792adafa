import Capmesh.Discovery.Frontmatter
import Capmesh.Discovery.Manifest
import Capmesh.Discovery.Packages
import Capmesh.Governance.Drafts

/-!
# Capability files

The six readers of `manifest.py` and the body of the loop of `discover_capabilities`. A reader
takes the bytes of the file, its path and the root it was found under. What a reader raises
becomes a locked reference to the file.
-/

namespace Capmesh

open Python

/-- What discovery takes from outside: `json.loads`, `str.title`, and which files exist. -/
structure DiscoveryHost where
  loads : String → JsonOutcome
  titled : String → String
  isFile : List String → Bool

/-- One file under a root: its path, the root, and its bytes. -/
structure SourceText where
  path : List String
  root : List String
  bytes : List UInt8

/-- `read_text`. -/
def SourceText.text (p : Platform) (file : SourceText) : String :=
  p.decodeUtf8 (file.bytes.take 2000000)

/-- `sha256_file`. -/
def SourceText.contentHash (p : Platform) (file : SourceText) : String :=
  "sha256:" ++ p.sha256 file.bytes

/-- The package that owns a file. -/
def SourceText.package (host : DiscoveryHost) (file : SourceText) :
    Except Failure (Option String) :=
  packageNameFor host.isFile file.path file.root

/-- `load_json`. -/
def loadJson (p : Platform) (host : DiscoveryHost) (file : SourceText) : Except Failure Json :=
  match host.loads (file.text p) with
  | .value json => .ok json
  | .decodeError => .ok (.obj [])
  | .failed failure => .error failure

/-- The fields of a manifest; `data.get` is not there on another value. -/
def asObject : Json → Except Failure Dict
  | .obj data => .ok data
  | _ => .error (.runtime "object has no attribute 'get'")

/-- `str(data.get(key) or default)`. -/
def textOr (data : Dict) (key default : String) : String :=
  match Dict.get? data key with
  | some value => if value.truthy then value.toStr else default
  | none => default

/-- `tuple(str(x) for x in data.get(key, ()))`. -/
def textsOf (data : Dict) (key : String) : Except Failure (List String) :=
  match data.find? (·.1 = key) with
  | none => .ok []
  | some (_, .arr items) => .ok (items.map Json.toStr)
  | some (_, .str text) => .ok (text.toList.map fun c => String.ofList [c])
  | some (_, .obj fields) => .ok (fields.map (·.1))
  | some _ => .error (.runtime "object is not iterable")

/-- The vocabulary checks of the constructor of a capability, in their order. -/
def checkVocabulary (type visibility discoveryMode riskTier : String) :
    Except Failure (CapabilityType × Visibility × DiscoveryMode × RiskTier) := do
  let type ← checked "capability type" type (CapabilityType.parse type)
  let visibility ← checked "visibility" visibility (Visibility.parse visibility)
  let mode ← checked "discovery mode" discoveryMode (DiscoveryMode.parse discoveryMode)
  let tier ← checked "risk tier" riskTier (RiskTier.parse riskTier)
  .ok (type, visibility, mode, tier)

/-- `name.replace("-", " ").title()`. -/
def titleOf (host : DiscoveryHost) (name : String) : String :=
  host.titled (String.ofList (name.toList.map fun c => if c = '-' then ' ' else c))

/-- The entrypoint of a file in its package. -/
def SourceText.entrypoint (file : SourceText) : String :=
  join "/" (file.path.drop (packagePathFor file.path).length)

/-- The columns that the path and the bytes decide, with what names the capability. -/
def SourceText.base (p : Platform) (file : SourceText) (type : CapabilityType)
    (name version kind : String) (plugin : Option String) : Capability :=
  let address := capabilityUri p type.text plugin name version (pathText file.path)
  { uri := address.1
    capabilityType := type
    name, version
    title := "", description := ""
    packagePath := p.normalizePath (pathText (packagePathFor file.path))
    entrypoint := file.entrypoint
    sourcePath := p.normalizePath (pathText file.path)
    sourceKind := kind
    sourceSystem := sourceSystemFor file.path
    canonicalKey := address.2
    contentHash := file.contentHash p
    plugin }

/-- The plugin a `cap.json` declares, else the package that owns it. -/
def manifestPlugin (host : DiscoveryHost) (file : SourceText) (data : Dict) :
    Except Failure (Option Json) :=
  if Dict.truthy data "plugin" then .ok (Dict.get? data "plugin")
  else do
    let package ← file.package host
    .ok (package.map .str)

/-- `capability_uri` on a plugin from a manifest: only a text can be slugified. -/
def manifestAddress (p : Platform) (type : String) (plugin : Option Json)
    (name version fallback : String) : Except Failure (String × String) :=
  match plugin with
  | none => .ok (capabilityUri p type none name version fallback)
  | some (.str text) => .ok (capabilityUri p type (some text) name version fallback)
  | some _ => .error (.runtime "object has no attribute 'strip'")

/-- `from_cap_manifest`; a category that is not a text is kept by its text. -/
def fromCapManifest (p : Platform) (host : DiscoveryHost) (file : SourceText) :
    Except Failure (Option Capability) := do
  let json ← loadJson p host file
  if !json.truthy then .ok none
  else do
    let data ← asObject json
    let type := textOr data "type" (textOr data "capabilityType" "workflow")
    let name := textOr data "name" (pathName (pathParent file.path))
    let version := textOr data "version" "0.1.0"
    let plugin ← manifestPlugin host file data
    let uri ← if Dict.truthy data "uri" then .ok (textOr data "uri" "")
      else (manifestAddress p type plugin name version (pathText file.path)).map (·.1)
    let canonical ← if Dict.truthy data "canonicalKey" then .ok (textOr data "canonicalKey" "")
      else (manifestAddress p type plugin name version (pathText file.path)).map (·.2)
    let keywords ← textsOf data "keywords"
    let requiredScopes ← textsOf data "requiredScopes"
    let allowGroups ← textsOf data "allowGroups"
    let allowUsers ← textsOf data "allowUsers"
    let (capabilityType, visibility, discoveryMode, riskTier) ← checkVocabulary type
      (textOr data "visibility" "internal") (textOr data "discoveryMode" "public")
      (textOr data "riskTier" "low")
    .ok (some
      { uri
        capabilityType, name, version
        title := textOr data "title" name
        description := textOr data "description" ""
        packagePath := p.normalizePath (pathText (pathParent file.path))
        entrypoint := textOr data "entrypoint" (pathName file.path)
        sourcePath := p.normalizePath (pathText file.path)
        sourceKind := "cap_manifest"
        sourceSystem := sourceSystemFor file.path
        canonicalKey := canonical
        contentHash := file.contentHash p
        visibility, discoveryMode
        owner := textOr data "owner" "asg"
        plugin := plugin.bind fun value => if value.truthy then some value.toStr else none
        category := (Dict.get? data "category").map Json.toStr
        keywords, requiredScopes, allowGroups, allowUsers, riskTier
        mutating := Dict.truthy data "mutating"
        metadata := data })

/-- `from_skill`, `from_agent` and `from_command`: the type, which is also the kind, the name of a
file that declares none, the fields only some of them read, and the default risk tier. -/
def fromMarkdown (p : Platform) (host : DiscoveryHost) (file : SourceText) (type : CapabilityType)
    (defaultName : String) (keyworded : Bool) (tierOf : Dict → String) :
    Except Failure Capability := do
  let (fm, body) := parseFrontmatter p (file.text p)
  let name := textOr fm "name" defaultName
  let plugin ← file.package host
  let version := textOr fm "version" "0.1.0"
  let (_, visibility, discoveryMode, riskTier) ← checkVocabulary type.text
    (textOr fm "visibility" "internal") (textOr fm "discoveryMode" "public") (tierOf fm)
  .ok { file.base p type name version type.text plugin with
    title := textOr fm "title" (titleOf host name)
    description := String.ofList ((textOr fm "description" (firstParagraph p body)).toList.take 4000)
    visibility, discoveryMode
    owner := textOr fm "owner" "asg"
    category := (Dict.get? fm "category").map Json.toStr
    keywords := if keyworded then splitKeywords p (textOr fm "keywords" "") else []
    requiredScopes := if keyworded then splitKeywords p (textOr fm "requiredScopes" "") else []
    riskTier
    metadata := [("frontmatter", .obj fm),
      ("bodyPreview", .str (String.ofList (body.toList.take 2000)))] }

/-- `from_skill`. -/
def fromSkill (p : Platform) (host : DiscoveryHost) (file : SourceText) :
    Except Failure Capability :=
  fromMarkdown p host file .skill (pathName (pathParent file.path)) true fun _ => "low"

/-- `from_agent`. -/
def fromAgent (p : Platform) (host : DiscoveryHost) (file : SourceText) :
    Except Failure Capability :=
  fromMarkdown p host file .agent (pathStem file.path) true (textOr · "riskTier" "medium")

/-- `from_command`. -/
def fromCommand (p : Platform) (host : DiscoveryHost) (file : SourceText) :
    Except Failure Capability :=
  fromMarkdown p host file .command (pathStem file.path) false fun _ => "medium"

/-- `package_name_for(path, root) or name`. -/
def packageOr (host : DiscoveryHost) (file : SourceText) (name : String) :
    Except Failure String := do
  let package ← file.package host
  .ok (optOr package name)

/-- `from_plugin_manifest`. -/
def fromPluginManifest (p : Platform) (host : DiscoveryHost) (file : SourceText) :
    Except Failure Capability := do
  let json ← loadJson p host file
  let plugin ← packageOr host file (pathName (pathParent (pathParent file.path)))
  let data ← asObject json
  let name := textOr data "name" plugin
  let version := textOr data "version" "0.1.0"
  let keywords ← textsOf data "keywords"
  let (_, visibility, discoveryMode, _) ← checkVocabulary "plugin"
    (textOr data "visibility" "internal") (textOr data "discoveryMode" "public") "low"
  .ok { file.base p .plugin name version "plugin_manifest" (some plugin) with
    title := textOr data "displayName" (textOr data "title" (titleOf host name))
    description := textOr data "description" ""
    visibility, discoveryMode
    owner := textOr data "author" "asg"
    keywords
    metadata := data }

/-- `from_mcp_manifest`. -/
def fromMcpManifest (p : Platform) (host : DiscoveryHost) (file : SourceText) :
    Except Failure Capability := do
  let json ← loadJson p host file
  let plugin ← packageOr host file (pathName (pathParent file.path))
  let data ← asObject json
  let name := textOr data "name" (plugin ++ "-mcp")
  let version := textOr data "version" "0.1.0"
  .ok { file.base p .mcpServer name version "mcp_manifest" (some plugin) with
    title := titleOf host name
    description := "MCP server manifest packaged with plugin."
    visibility := .protected
    discoveryMode := .locked
    riskTier := .high
    metadata := data }

/-- The text of an exception. -/
def Failure.reason : Failure → String
  | .integrity text | .value text | .permission text | .runtime text | .quarantine text
  | .releaseBlocked text | .os text => text

/-- What a file that a reader refuses becomes. -/
def unparsed (p : Platform) (file : SourceText) (failure : Failure) : Capability :=
  let stem := pathStem file.path
  { file.base p .reference stem "0.1.0" (sourceKindFor file.path) none with
    title := stem
    description := "Failed to parse as structured capability: " ++ failure.reason
    packagePath := p.normalizePath (pathText (pathParent file.path))
    entrypoint := pathName file.path
    discoveryMode := .locked
    metadata := [("parseError", .str failure.reason)] }

/-- What a capability has when discovery returns it, whatever the file holds: the columns that only
governance fills have their defaults. -/
structure Capability.AsDiscovered (cap : Capability) : Prop where
  ordinary : cap.isSystemOrDraft = false
  hashed : cap.contentHash ≠ ""
  tenantId : cap.tenantId = "asg"
  storeId : cap.storeId = none
  namespaceId : cap.namespaceId = none
  promotedFromUri : cap.promotedFromUri = none
  approvalState : cap.approvalState = .published
  lifecycle : cap.lifecycle = .active

/-- The kinds of capability file, by their paths. -/
inductive SourceKind where
  | capManifest | skill | agent | command | pluginManifest | mcpManifest
  deriving DecidableEq, Repr

/-- The reader that the loop of `discover_capabilities` picks. -/
def sourceKindOf (path : List String) : Option SourceKind :=
  if pathName path = "cap.json" then some .capManifest
  else if pathName path = "SKILL.md" then some .skill
  else if path.contains "agents" && pathSuffix (pathName path) = ".md" then some .agent
  else if path.contains "commands" && pathSuffix (pathName path) = ".md" then some .command
  else if pathName path = "plugin.json" && path.contains ".claude-plugin" then
    some .pluginManifest
  else if pathName path = ".mcp.json" then some .mcpManifest
  else none

/-- The reader of a file. -/
def structured (p : Platform) (host : DiscoveryHost) (file : SourceText) :
    Except Failure (Option Capability) :=
  match sourceKindOf file.path with
  | some .capManifest => fromCapManifest p host file
  | some .skill => (fromSkill p host file).map some
  | some .agent => (fromAgent p host file).map some
  | some .command => (fromCommand p host file).map some
  | some .pluginManifest => (fromPluginManifest p host file).map some
  | some .mcpManifest => (fromMcpManifest p host file).map some
  | none => .ok none

/-- The body of the loop of `discover_capabilities`. -/
def discoverFile (p : Platform) (host : DiscoveryHost) (file : SourceText) : Option Capability :=
  match structured p host file with
  | .ok found => found
  | .error failure => some (unparsed p file failure)

end Capmesh
