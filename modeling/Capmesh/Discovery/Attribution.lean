import Mathlib.Data.Bool.AllAny
import Capmesh.Discovery.Sources
import Capmesh.Governance.Edits
import Capmesh.Python.Casing

/-!
# Attribution

Whose plugin a discovered capability is. `discovered_plugin` is the rule of the readers: a file
that can be read belongs to the package of its path, unless it is a `cap.json` that names a plugin
of its own. `discovered_as_discovered` says what no content decides. `plugin_unforged_iff` compares
two contents of one file, and what the scanner of prompt injections makes of the difference.
-/

namespace Capmesh

open Python

/-- The plugin that the path of a file gives it, whatever the file holds. -/
def pathPlugin (isFile : List String → Bool) (path root : List String) : Option String :=
  (packageNameFor isFile path root).toOption.bind fun package =>
    match sourceKindOf path with
    | some .capManifest => package.filter (· ≠ "")
    | some .pluginManifest => some (optOr package (pathName (pathParent (pathParent path))))
    | some .mcpManifest => some (optOr package (pathName (pathParent path)))
    | _ => package

/-- Whether the texts of the four checked fields are in their vocabularies. -/
def knownVocabulary (type visibility discoveryMode riskTier : String) : Bool :=
  (CapabilityType.parse type).isSome && ((Visibility.parse visibility).isSome &&
    ((DiscoveryMode.parse discoveryMode).isSome && (RiskTier.parse riskTier).isSome))

/-- Whether `data.get(key, ())` can be iterated over. -/
def iterable (data : Dict) (key : String) : Bool :=
  match data.find? (·.1 = key) with
  | none | some (_, .arr _) | some (_, .str _) | some (_, .obj _) => true
  | some _ => false

/-- The plugin that the fields of a `cap.json` name. -/
def namedPlugin (data : Dict) : Option Json := (Dict.get? data "plugin").filter Json.truthy

/-- Whether a plugin can be part of an address. -/
def slugged (plugin : Option Json) : Bool := plugin.all fun value => value matches .str _

/-- Whether a `cap.json` with these fields is a capability. -/
def readableManifest (data : Dict) : Bool :=
  (Dict.truthy data "uri" || slugged (namedPlugin data)) &&
    ((Dict.truthy data "canonicalKey" || slugged (namedPlugin data)) &&
      (["keywords", "requiredScopes", "allowGroups", "allowUsers"].all (iterable data) &&
        knownVocabulary (textOr data "type" (textOr data "capabilityType" "workflow"))
          (textOr data "visibility" "internal") (textOr data "discoveryMode" "public")
          (textOr data "riskTier" "low")))

/-- Whether the fields of a front matter are in their vocabularies. -/
def readableMarkdown (p : Platform) (file : SourceText) (type : CapabilityType)
    (tierOf : Dict → String) : Bool :=
  let fm := (parseFrontmatter p (file.text p)).1
  knownVocabulary type.text (textOr fm "visibility" "internal")
    (textOr fm "discoveryMode" "public") (tierOf fm)

/-- The fields of a JSON file, when it holds an object; a text that is not JSON has none. -/
def jsonFields (p : Platform) (host : DiscoveryHost) (file : SourceText) : Option Dict :=
  match host.loads (file.text p) with
  | .value (.obj data) => some data
  | .decodeError => some []
  | _ => none

/-- The plugin that a file declares; only a `cap.json` can. -/
def declaredPlugin (p : Platform) (host : DiscoveryHost) (file : SourceText) : Option String :=
  match sourceKindOf file.path with
  | some .capManifest => (jsonFields p host file).bind fun data => (namedPlugin data).map Json.toStr
  | _ => none

/-- Whether the reader of a file takes it. -/
def readable (p : Platform) (host : DiscoveryHost) (file : SourceText) : Bool :=
  ((declaredPlugin p host file).isSome || (file.package host).isOk) &&
  match sourceKindOf file.path with
  | some .capManifest => (jsonFields p host file).any readableManifest
  | some .skill => readableMarkdown p file .skill fun _ => "low"
  | some .agent => readableMarkdown p file .agent (textOr · "riskTier" "medium")
  | some .command => readableMarkdown p file .command fun _ => "medium"
  | some .pluginManifest =>
      (jsonFields p host file).any fun data => iterable data "keywords" &&
        knownVocabulary "plugin" (textOr data "visibility" "internal")
          (textOr data "discoveryMode" "public") "low"
  | some .mcpManifest => (jsonFields p host file).isSome
  | none => true

section Fallible

variable {α β : Type} {next : α → Except Failure β} {ok : Bool} {result : β}

theorem is_ok_bind (first : Except Failure α) (h : ∀ value, first = .ok value →
    (next value).isOk = ok) : (first >>= next).isOk = (first.isOk && ok) := by
  cases first with
  | error failure => rfl
  | ok value => exact (h value rfl).trans (Bool.true_and ok).symm

theorem is_ok_given (given : Bool) (value : α) (derived : Except Failure α)
    (h : ∀ found, (next found).isOk = ok) :
    (if given = true then Except.ok value >>= next else derived >>= next).isOk =
      ((given || derived.isOk) && ok) := by
  cases given with
  | true => exact (h value).trans (Bool.true_and ok).symm
  | false => exact is_ok_bind derived fun found _ => h found

theorem given_eq_ok {given : Bool} {value : α} {derived : Except Failure α}
    (h : (if given = true then Except.ok value >>= next else derived >>= next) = .ok result) :
    ∃ found, next found = .ok result := by
  cases given with
  | true => exact ⟨value, h⟩
  | false =>
      obtain ⟨found, -, hfound⟩ := bind_eq_ok h
      exact ⟨found, hfound⟩

theorem checked_is_ok (what text : String) (value : Option α) :
    (checked what text value).isOk = value.isSome := by
  cases value with
  | none => rfl
  | some found => rfl

end Fallible

section Readers

variable {p : Platform} {host : DiscoveryHost} {file : SourceText} {cap : Capability}
  {data : Dict} {plugin : Option Json}

theorem check_vocabulary_is_ok (type visibility discoveryMode riskTier : String) :
    (checkVocabulary type visibility discoveryMode riskTier).isOk =
      knownVocabulary type visibility discoveryMode riskTier := by
  unfold checkVocabulary
  refine Eq.trans (is_ok_bind _ fun _ _ => is_ok_bind _ fun _ _ => is_ok_bind _ fun _ _ =>
    is_ok_bind _ fun _ _ => rfl) ?_
  simp only [checked_is_ok, knownVocabulary]
  exact congrArg (_ && ·) (congrArg (_ && ·) (congrArg (_ && ·) (Bool.and_true _)))

theorem texts_of_is_ok (data : Dict) (key : String) :
    (textsOf data key).isOk = iterable data key := by
  unfold textsOf iterable
  cases data.find? (·.1 = key) with
  | none => rfl
  | some field =>
      obtain ⟨name, value⟩ := field
      cases value with
      | arr items => rfl
      | str text => rfl
      | obj fields => rfl
      | null => rfl
      | bool value => rfl
      | int value => rfl
      | float literal => rfl

theorem manifest_address_is_ok (p : Platform) (type name version fallback : String)
    (plugin : Option Json) (part : String × String → String) :
    ((manifestAddress p type plugin name version fallback).map part).isOk = slugged plugin := by
  cases plugin with
  | none => rfl
  | some value =>
      cases value with
      | str text => rfl
      | null => rfl
      | bool value => rfl
      | int value => rfl
      | float literal => rfl
      | arr items => rfl
      | obj fields => rfl

/-- The plugin of a `cap.json` is the one it names, or else the package of its path. -/
theorem manifest_plugin_eq (host : DiscoveryHost) (file : SourceText) (data : Dict) :
    manifestPlugin host file data =
      match namedPlugin data with
      | some value => .ok (some value)
      | none => (file.package host).map fun package => package.map .str := by
  unfold manifestPlugin namedPlugin Dict.truthy
  cases Dict.get? data "plugin" with
  | none =>
      cases file.package host with
      | error failure => rfl
      | ok package => rfl
  | some value =>
      cases htruthy : value.truthy with
      | true => simp [htruthy, Option.filter]
      | false =>
          cases file.package host with
          | error failure => simp [htruthy, Option.filter, bind, Except.bind, Except.map]
          | ok package => simp [htruthy, Option.filter, bind, Except.bind, Except.map]

theorem manifest_plugin_cases (h : manifestPlugin host file data = .ok plugin) :
    (∃ value, namedPlugin data = some value ∧ plugin = some value) ∨
      (namedPlugin data = none ∧ ∃ package, file.package host = .ok package ∧
        plugin = package.map .str) := by
  rw [manifest_plugin_eq] at h
  cases hnamed : namedPlugin data with
  | some value =>
      rw [hnamed] at h
      exact .inl ⟨value, rfl, (Except.ok.inj h).symm⟩
  | none =>
      rw [hnamed] at h
      obtain ⟨package, hpackage, hplugin⟩ := map_eq_ok h
      exact .inr ⟨rfl, package, hpackage, hplugin.symm⟩

/-- A package can always be part of an address. -/
theorem slugged_manifest_plugin (h : manifestPlugin host file data = .ok plugin) :
    slugged plugin = slugged (namedPlugin data) := by
  rcases manifest_plugin_cases h with ⟨value, hnamed, rfl⟩ | ⟨hnamed, package, -, rfl⟩
  · rw [hnamed]
  · rw [hnamed]
    cases package with
    | none => rfl
    | some text => rfl

theorem from_cap_manifest_is_ok (hload : loadJson p host file = .ok (.obj data))
    (hne : (Json.obj data).truthy = true) :
    (fromCapManifest p host file).isOk =
      (((namedPlugin data).isSome || (file.package host).isOk) && readableManifest data) := by
  have hplugin : (manifestPlugin host file data).isOk =
      ((namedPlugin data).isSome || (file.package host).isOk) := by
    rw [manifest_plugin_eq]
    cases namedPlugin data with
    | some value => rfl
    | none =>
        cases file.package host with
        | error failure => rfl
        | ok package => rfl
  unfold fromCapManifest
  rw [hload, ← hplugin]
  show (if (!(Json.obj data).truthy) = true then .ok none else _ : Except Failure _).isOk = _
  rw [hne, if_neg (by decide)]
  show (manifestPlugin host file data >>= _).isOk = _
  refine is_ok_bind _ fun plugin hvalue => ?_
  refine Eq.trans (is_ok_given _ _ _ fun _ => is_ok_given _ _ _ fun _ =>
    is_ok_bind _ fun _ _ => is_ok_bind _ fun _ _ => is_ok_bind _ fun _ _ =>
      is_ok_bind _ fun _ _ => is_ok_bind _ fun _ _ => rfl) ?_
  simp only [manifest_address_is_ok, texts_of_is_ok, check_vocabulary_is_ok,
    slugged_manifest_plugin hvalue, readableManifest, List.all_cons, List.all_nil,
    Bool.and_true, Bool.and_assoc]

theorem content_hash_ne (p : Platform) (file : SourceText) : file.contentHash p ≠ "" := by
  unfold SourceText.contentHash
  simp

theorem as_object_ok {json : Json} (h : asObject json = .ok data) : json = .obj data := by
  cases json with
  | obj fields => rw [Except.ok.inj h]
  | null => cases h
  | bool value => cases h
  | int value => cases h
  | float literal => cases h
  | str text => cases h
  | arr items => cases h

/-- What the readers fill alike: the kind and the system of a file are named, its path and its digest
are indexed, and nothing is shared or checked. -/
structure Capability.ReadFrom (p : Platform) (file : SourceText) (cap : Capability) : Prop extends
    cap.AsDiscovered where
  kind : cap.sourceKind ≠ ""
  system : cap.sourceSystem ≠ ""
  digest : cap.contentHash = file.contentHash p
  path : cap.sourcePath = p.normalizePath (pathText file.path)
  share : cap.shareState = .notShared
  signature : cap.signatureStatus = .unchecked
  provenance : cap.provenanceStatus = .unchecked

theorem source_system_ne (path : List String) : sourceSystemFor path ≠ "" := by
  unfold sourceSystemFor
  dsimp only
  split_ifs <;> decide

/-- What a `cap.json` becomes, when it becomes a capability. -/
theorem from_cap_manifest_cases (h : fromCapManifest p host file = .ok (some cap)) :
    ∃ data plugin, loadJson p host file = .ok (.obj data) ∧ (Json.obj data).truthy = true ∧
      manifestPlugin host file data = .ok plugin ∧ cap.ReadFrom p file ∧
      cap.plugin = plugin.bind fun value => if value.truthy then some value.toStr else none := by
  unfold fromCapManifest at h
  obtain ⟨json, hload, h⟩ := bind_eq_ok h
  split at h
  · cases h
  · rename_i hne
    obtain ⟨data, hdata, h⟩ := bind_eq_ok h
    obtain ⟨plugin, hplugin, h⟩ := bind_eq_ok h
    obtain ⟨uri, h⟩ := given_eq_ok h
    obtain ⟨canonical, h⟩ := given_eq_ok h
    obtain ⟨keywords, -, h⟩ := bind_eq_ok h
    obtain ⟨scopes, -, h⟩ := bind_eq_ok h
    obtain ⟨groups, -, h⟩ := bind_eq_ok h
    obtain ⟨users, -, h⟩ := bind_eq_ok h
    obtain ⟨vocabulary, -, h⟩ := bind_eq_ok h
    have hcap := Option.some.inj (Except.ok.inj h)
    subst hcap
    obtain rfl := as_object_ok hdata
    exact ⟨data, plugin, hload, by simpa using hne, hplugin,
      ⟨⟨rfl, content_hash_ne p file, rfl, rfl, rfl, rfl, rfl, rfl⟩,
        show "cap_manifest" ≠ "" by decide, source_system_ne _, rfl, rfl, rfl, rfl, rfl⟩, rfl⟩

theorem manifest_plugin_text (h : manifestPlugin host file data = .ok plugin) :
    (plugin.bind fun value => if value.truthy then some value.toStr else none) =
      ((namedPlugin data).map Json.toStr).or
        ((file.package host).toOption.bind fun package => package.filter (· ≠ "")) := by
  rcases manifest_plugin_cases h with ⟨value, hnamed, rfl⟩ | ⟨hnamed, package, hpackage, rfl⟩
  · have htruthy : value.truthy = true := (Option.filter_eq_some_iff.mp hnamed).2
    simp [hnamed, htruthy]
  · rw [hnamed, hpackage]
    cases package with
    | none => rfl
    | some text =>
        by_cases htext : text = ""
        · subst htext
          rfl
        · simp [Except.toOption, Json.truthy, Json.toStr, Json.strText, Option.filter, htext]

theorem json_fields_eq (p : Platform) (host : DiscoveryHost) (file : SourceText) :
    jsonFields p host file = (loadJson p host file >>= asObject).toOption := by
  unfold jsonFields loadJson
  cases host.loads (file.text p) with
  | value json =>
      cases json with
      | obj data => rfl
      | null => rfl
      | bool value => rfl
      | int value => rfl
      | float literal => rfl
      | str text => rfl
      | arr items => rfl
  | decodeError => rfl
  | failed failure => rfl

theorem from_markdown_is_ok (type : CapabilityType) (defaultName : String) (keyworded : Bool)
    (tierOf : Dict → String) :
    (fromMarkdown p host file type defaultName keyworded tierOf).isOk =
      ((file.package host).isOk && readableMarkdown p file type tierOf) := by
  unfold fromMarkdown readableMarkdown
  refine Eq.trans (is_ok_bind _ fun _ _ => is_ok_bind _ fun _ _ => rfl) ?_
  rw [check_vocabulary_is_ok]
  exact congrArg (_ && ·) (Bool.and_true _)

theorem from_markdown_cases {type : CapabilityType} {defaultName : String} {keyworded : Bool}
    {tierOf : Dict → String}
    (h : fromMarkdown p host file type defaultName keyworded tierOf = .ok cap) :
    file.package host = .ok cap.plugin ∧ cap.ReadFrom p file := by
  unfold fromMarkdown at h
  obtain ⟨package, hpackage, h⟩ := bind_eq_ok h
  obtain ⟨vocabulary, -, h⟩ := bind_eq_ok h
  have hcap := Except.ok.inj h
  rw [hpackage, ← hcap]
  exact ⟨rfl, ⟨by cases type <;> rfl, content_hash_ne p file, rfl, rfl, rfl, rfl, rfl, rfl⟩,
    show type.text ≠ "" by cases type <;> decide, source_system_ne _, rfl, rfl, rfl, rfl, rfl⟩

theorem package_or_is_ok (host : DiscoveryHost) (file : SourceText) (name : String) :
    (packageOr host file name).isOk = (file.package host).isOk := by
  unfold packageOr
  cases file.package host with
  | error failure => rfl
  | ok package => rfl

theorem from_plugin_manifest_is_ok (p : Platform) (host : DiscoveryHost) (file : SourceText) :
    (fromPluginManifest p host file).isOk =
      ((file.package host).isOk && (jsonFields p host file).any fun data =>
        iterable data "keywords" && knownVocabulary "plugin" (textOr data "visibility" "internal")
          (textOr data "discoveryMode" "public") "low") := by
  rw [json_fields_eq,
    ← package_or_is_ok host file (pathName (pathParent (pathParent file.path)))]
  unfold fromPluginManifest
  cases loadJson p host file with
  | error failure => exact (Bool.and_false _).symm
  | ok json =>
      show (packageOr host file _ >>= _).isOk = _
      refine is_ok_bind _ fun plugin _ => ?_
      show _ = Option.any _ (asObject json).toOption
      cases asObject json with
      | error failure => rfl
      | ok data =>
          show (textsOf data "keywords" >>= _).isOk = _
          refine Eq.trans (is_ok_bind _ fun _ _ => is_ok_bind _ fun _ _ => rfl) ?_
          rw [texts_of_is_ok, check_vocabulary_is_ok]
          exact congrArg (_ && ·) (Bool.and_true _)

theorem from_plugin_manifest_cases (h : fromPluginManifest p host file = .ok cap) :
    cap.ReadFrom p file ∧ ∃ package, file.package host = .ok package ∧
      cap.plugin = some (optOr package (pathName (pathParent (pathParent file.path)))) := by
  unfold fromPluginManifest at h
  obtain ⟨json, -, h⟩ := bind_eq_ok h
  obtain ⟨plugin, hplugin, h⟩ := bind_eq_ok h
  obtain ⟨data, -, h⟩ := bind_eq_ok h
  obtain ⟨keywords, -, h⟩ := bind_eq_ok h
  obtain ⟨vocabulary, -, h⟩ := bind_eq_ok h
  obtain ⟨package, hpackage, hname⟩ := bind_eq_ok hplugin
  rw [← Except.ok.inj h, ← Except.ok.inj hname]
  exact ⟨⟨⟨rfl, content_hash_ne p file, rfl, rfl, rfl, rfl, rfl, rfl⟩, show "plugin_manifest" ≠ "" by decide,
    source_system_ne _, rfl, rfl, rfl, rfl, rfl⟩, package, hpackage, rfl⟩

theorem from_mcp_manifest_is_ok (p : Platform) (host : DiscoveryHost) (file : SourceText) :
    (fromMcpManifest p host file).isOk =
      ((file.package host).isOk && (jsonFields p host file).isSome) := by
  rw [json_fields_eq, ← package_or_is_ok host file (pathName (pathParent file.path))]
  unfold fromMcpManifest
  cases loadJson p host file with
  | error failure => exact (Bool.and_false _).symm
  | ok json =>
      show (packageOr host file _ >>= _).isOk = _
      refine is_ok_bind _ fun plugin _ => ?_
      show _ = (asObject json).toOption.isSome
      cases asObject json with
      | error failure => rfl
      | ok data => rfl

theorem from_mcp_manifest_cases (h : fromMcpManifest p host file = .ok cap) :
    cap.ReadFrom p file ∧ ∃ package, file.package host = .ok package ∧
      cap.plugin = some (optOr package (pathName (pathParent file.path))) := by
  unfold fromMcpManifest at h
  obtain ⟨json, -, h⟩ := bind_eq_ok h
  obtain ⟨plugin, hplugin, h⟩ := bind_eq_ok h
  obtain ⟨data, -, h⟩ := bind_eq_ok h
  obtain ⟨package, hpackage, hname⟩ := bind_eq_ok hplugin
  rw [← Except.ok.inj h, ← Except.ok.inj hname]
  exact ⟨⟨⟨rfl, content_hash_ne p file, rfl, rfl, rfl, rfl, rfl, rfl⟩, show "mcp_manifest" ≠ "" by decide,
    source_system_ne _, rfl, rfl, rfl, rfl, rfl⟩, package, hpackage, rfl⟩

theorem map_is_ok {α β : Type} (first : Except Failure α) (f : α → β) :
    (first.map f).isOk = first.isOk := by
  cases first with
  | error failure => rfl
  | ok value => rfl

theorem from_cap_manifest_taken (h : fromCapManifest p host file ≠ .ok none) :
    (fromCapManifest p host file).isOk =
      ((((jsonFields p host file).bind fun data => (namedPlugin data).map Json.toStr).isSome ||
        (file.package host).isOk) && (jsonFields p host file).any readableManifest) := by
  rw [json_fields_eq]
  cases hload : loadJson p host file with
  | error failure =>
      have hrefused : fromCapManifest p host file = .error failure := by
        unfold fromCapManifest
        rw [hload]
        rfl
      rw [hrefused]
      exact (Bool.and_false _).symm
  | ok json =>
      cases htruthy : json.truthy with
      | false =>
          refine absurd ?_ h
          unfold fromCapManifest
          rw [hload]
          show (if (!json.truthy) = true then Except.ok none else _) = _
          rw [htruthy]
          rfl
      | true =>
          show _ = ((((asObject json).toOption.bind _).isSome || _) && (asObject json).toOption.any _)
          cases hdata : asObject json with
          | error failure =>
              have hrefused : fromCapManifest p host file = .error failure := by
                unfold fromCapManifest
                rw [hload]
                show (if (!json.truthy) = true then Except.ok none else asObject json >>= _) = _
                rw [htruthy, hdata]
                rfl
              rw [hrefused]
              exact (Bool.and_false _).symm
          | ok data =>
              obtain rfl := as_object_ok hdata
              rw [from_cap_manifest_is_ok hload htruthy]
              show _ = ((((namedPlugin data).map Json.toStr).isSome || _) && readableManifest data)
              rw [Option.isSome_map]

/-- Apart from a `cap.json` that holds nothing, the readers take the readable files. -/
theorem structured_is_ok (p : Platform) (host : DiscoveryHost) (file : SourceText)
    (h : structured p host file ≠ .ok none) :
    (structured p host file).isOk = readable p host file := by
  unfold structured at h ⊢
  unfold readable declaredPlugin
  cases hkind : sourceKindOf file.path with
  | none => exact absurd (by rw [hkind]) h
  | some kind =>
      rw [hkind] at h
      cases kind with
      | capManifest => exact from_cap_manifest_taken h
      | skill => exact (map_is_ok _ _).trans (from_markdown_is_ok _ _ _ _)
      | agent => exact (map_is_ok _ _).trans (from_markdown_is_ok _ _ _ _)
      | command => exact (map_is_ok _ _).trans (from_markdown_is_ok _ _ _ _)
      | pluginManifest => exact (map_is_ok _ _).trans (from_plugin_manifest_is_ok p host file)
      | mcpManifest => exact (map_is_ok _ _).trans (from_mcp_manifest_is_ok p host file)

theorem from_markdown_rule {type : CapabilityType} {defaultName : String} {keyworded : Bool}
    {tierOf : Dict → String}
    (h : (fromMarkdown p host file type defaultName keyworded tierOf).map some = .ok (some cap)) :
    cap.ReadFrom p file ∧ cap.plugin = (file.package host).toOption.bind id := by
  obtain ⟨found, hfound, hcap⟩ := map_eq_ok h
  obtain rfl := Option.some.inj hcap
  obtain ⟨hplugin, hdiscovered⟩ := from_markdown_cases hfound
  rw [hplugin]
  exact ⟨hdiscovered, rfl⟩

/-- The rule of the readers: a file that is taken belongs to the plugin it declares, or else to
the one its path gives. -/
theorem structured_cases (h : structured p host file = .ok (some cap)) :
    cap.ReadFrom p file ∧
      cap.plugin = (declaredPlugin p host file).or (pathPlugin host.isFile file.path file.root) := by
  unfold structured at h
  unfold declaredPlugin pathPlugin
  cases hkind : sourceKindOf file.path with
  | none =>
      rw [hkind] at h
      cases h
  | some kind =>
      rw [hkind] at h
      cases kind with
      | capManifest =>
          obtain ⟨data, plugin, hload, -, hplugin, hdiscovered, hcap⟩ := from_cap_manifest_cases h
          have hfields := json_fields_eq p host file
          rw [hload] at hfields
          dsimp only
          rw [hfields]
          exact ⟨hdiscovered, hcap.trans (manifest_plugin_text hplugin)⟩
      | skill => exact from_markdown_rule h
      | agent => exact from_markdown_rule h
      | command => exact from_markdown_rule h
      | pluginManifest =>
          obtain ⟨found, hfound, hcap⟩ := map_eq_ok h
          obtain rfl := Option.some.inj hcap
          obtain ⟨hdiscovered, package, hpackage, hplugin⟩ := from_plugin_manifest_cases hfound
          have hname : packageNameFor host.isFile file.path file.root = .ok package := hpackage
          rw [hplugin, hname]
          exact ⟨hdiscovered, rfl⟩
      | mcpManifest =>
          obtain ⟨found, hfound, hcap⟩ := map_eq_ok h
          obtain rfl := Option.some.inj hcap
          obtain ⟨hdiscovered, package, hpackage, hplugin⟩ := from_mcp_manifest_cases hfound
          have hname : packageNameFor host.isFile file.path file.root = .ok package := hpackage
          rw [hplugin, hname]
          exact ⟨hdiscovered, rfl⟩

theorem source_kind_ordinary (path : List String) :
    sourceKindFor path ≠ "" ∧ sourceKindFor path ≠ "system_capability" ∧
      sourceKindFor path ≠ "capmesh_draft" := by
  unfold sourceKindFor
  refine ⟨?_, ?_, ?_⟩ <;> (repeat' split) <;> decide

theorem unparsed_read_from (p : Platform) (file : SourceText) (failure : Failure) :
    (unparsed p file failure).ReadFrom p file := by
  obtain ⟨hnamed, hsystem, hdraft⟩ := source_kind_ordinary file.path
  refine ⟨⟨?_, content_hash_ne p file, rfl, rfl, rfl, rfl, rfl, rfl⟩, hnamed, source_system_ne _,
    rfl, rfl, rfl, rfl, rfl⟩
  show (decide (sourceKindFor file.path = "system_capability") ||
    decide (sourceKindFor file.path = "capmesh_draft")) = false
  rw [decide_eq_false hsystem, decide_eq_false hdraft]
  rfl

/-- Discovery labels what it finds, and fills no column that only governance fills. -/
theorem discovered_read_from (h : discoverFile p host file = some cap) : cap.ReadFrom p file := by
  unfold discoverFile at h
  cases hread : structured p host file with
  | ok found =>
      rw [hread] at h
      have hfound : found = some cap := h
      exact (structured_cases (hread.trans (congrArg _ hfound))).1
  | error failure =>
      rw [hread] at h
      obtain rfl := Option.some.inj h
      exact unparsed_read_from p file failure

/-- No content fills a column that only governance fills. -/
theorem discovered_as_discovered (h : discoverFile p host file = some cap) : cap.AsDiscovered :=
  (discovered_read_from h).toAsDiscovered

theorem discovered_plugin (h : discoverFile p host file = some cap) :
    cap.plugin = if readable p host file then
      (declaredPlugin p host file).or (pathPlugin host.isFile file.path file.root) else none := by
  unfold discoverFile at h
  cases hread : structured p host file with
  | ok found =>
      rw [hread] at h
      have hfound : found = some cap := h
      have hok := structured_is_ok p host file (by rw [hread, hfound]; simp)
      rw [hread] at hok
      have htaken : readable p host file = true := hok.symm
      rw [if_pos htaken]
      exact (structured_cases (hread.trans (congrArg _ hfound))).2
  | error failure =>
      rw [hread] at h
      have hok := structured_is_ok p host file (by rw [hread]; simp)
      rw [hread] at hok
      have hrefused : readable p host file = false := hok.symm
      rw [hrefused, ← Option.some.inj h]
      rfl

end Readers

section Scanning

variable {p : Platform} {phrase name : String} {kind plugin : Option String} {surface : Surface}

theorem severity_of_not_domain (h : isSecurityDomainPlugin p plugin = false) :
    (classifyScanResult p phrase name kind plugin surface).1 =
      (classifyScanResult p phrase name kind none surface).1 := by
  have hnone : isSecurityDomainPlugin p none = false := rfl
  unfold classifyScanResult
  simp only [h, hnone, Bool.and_false, Bool.false_and, Bool.false_eq_true, if_false]

/-- `exfiltrate` is in the vocabulary of the security domain and is not a benign phrase. -/
theorem severity_exfiltrate (p : Platform) (name : String) (kind plugin : Option String)
    (surface : Surface) :
    (classifyScanResult p "exfiltrate" name kind plugin surface).1 =
      if isSecurityDomainPlugin p plugin then .info else .block := by
  have hlower : p.lower "exfiltrate" = "exfiltrate" := by
    show String.ofList (p.chars.lowerFrom [] _) = _
    rw [Python.CharTable.lower_from_small p.chars []
      (List.all_iff_forall_prop.mp (by decide))]
    rfl
  have hvocabulary : securityDomainVocabulary.contains "exfiltrate" = true := by decide
  have hphrase : allowedPhrases.contains "exfiltrate" = false := by decide
  unfold classifyScanResult
  cases hdomain : isSecurityDomainPlugin p plugin with
  | true => simp only [hlower, hvocabulary, Bool.and_self, if_true]
  | false =>
      simp only [hlower, hvocabulary, hphrase, Bool.and_false, Bool.false_and, Bool.false_eq_true,
        if_false]

end Scanning

/-- The plugin of a capability turns no finding of a scan into information. -/
def NotEased (p : Platform) (cap : Capability) : Prop :=
  ∀ phrase ∈ injectionPhrases, ∀ surface,
    (classifyScanResult p phrase cap.name (some cap.capabilityType.text) cap.plugin surface).1 =
        .info →
      (classifyScanResult p phrase cap.name (some cap.capabilityType.text) none surface).1 = .info

/-- Two contents of one file are attributed alike, and outside the security domain no scan is
eased for what they become. -/
def Unforged (p : Platform) (host : DiscoveryHost) (path root : List String)
    (left right : List UInt8) : Prop :=
  ∀ capL capR, discoverFile p host ⟨path, root, left⟩ = some capL →
    discoverFile p host ⟨path, root, right⟩ = some capR →
      capL.plugin = capR.plugin ∧
        (isSecurityDomainPlugin p (pathPlugin host.isFile path root) = false →
          NotEased p capL ∧ NotEased p capR)

/-- The plugin that a file claims: the one it declares, or else the one its path gives. -/
def claimedPlugin (p : Platform) (host : DiscoveryHost) (file : SourceText) : Option String :=
  (declaredPlugin p host file).or (pathPlugin host.isFile file.path file.root)

/-- What two contents of one file declare says nothing that the path does not: those that are read
claim one plugin, which is none when the other is not read, and outside the security domain
neither declares a plugin of the domain. -/
def NothingDeclared (p : Platform) (host : DiscoveryHost) (left right : SourceText) : Prop :=
  (match readable p host left, readable p host right with
    | true, true => claimedPlugin p host left = claimedPlugin p host right
    | true, false => claimedPlugin p host left = none
    | false, true => claimedPlugin p host right = none
    | false, false => True) ∧
  (isSecurityDomainPlugin p (pathPlugin host.isFile left.path left.root) = false →
    ∀ file ∈ [left, right], readable p host file = true →
      isSecurityDomainPlugin p (declaredPlugin p host file) = false)

theorem not_eased_iff (p : Platform) (cap : Capability) :
    NotEased p cap ↔ isSecurityDomainPlugin p cap.plugin = false := by
  constructor
  · intro heased
    cases hdomain : isSecurityDomainPlugin p cap.plugin with
    | false => rfl
    | true =>
        have hinfo := heased "exfiltrate" (by decide) .metadata (by
          rw [severity_exfiltrate, hdomain, if_pos rfl])
        have hnone : isSecurityDomainPlugin p none = false := rfl
        rw [severity_exfiltrate, hnone] at hinfo
        cases hinfo
  · intro hdomain phrase _ surface hinfo
    rw [← severity_of_not_domain hdomain]
    exact hinfo

theorem not_eased_of_path {p : Platform} {host : DiscoveryHost} {file : SourceText}
    {cap : Capability} (hcap : discoverFile p host file = some cap)
    (hpath : isSecurityDomainPlugin p (pathPlugin host.isFile file.path file.root) = false) :
    NotEased p cap ↔ (readable p host file = true →
      isSecurityDomainPlugin p (declaredPlugin p host file) = false) := by
  rw [not_eased_iff, discovered_plugin hcap]
  cases readable p host file with
  | false => exact ⟨fun _ hread => (by cases hread), fun _ => rfl⟩
  | true =>
      rw [if_pos rfl]
      cases declaredPlugin p host file with
      | none => exact ⟨fun _ _ => rfl, fun _ => hpath⟩
      | some name => exact ⟨fun hdomain _ => hdomain, fun h => h rfl⟩

/-- Attribution follows the path exactly when the contents declare nothing beside it. -/
theorem plugin_unforged_iff (p : Platform) (host : DiscoveryHost) (path root : List String)
    (left right : List UInt8) (hleft : (discoverFile p host ⟨path, root, left⟩).isSome)
    (hright : (discoverFile p host ⟨path, root, right⟩).isSome) :
    Unforged p host path root left right ↔
      NothingDeclared p host ⟨path, root, left⟩ ⟨path, root, right⟩ := by
  obtain ⟨capL, hcapL⟩ := Option.isSome_iff_exists.mp hleft
  obtain ⟨capR, hcapR⟩ := Option.isSome_iff_exists.mp hright
  have hsame : capL.plugin = capR.plugin ↔
      match readable p host ⟨path, root, left⟩, readable p host ⟨path, root, right⟩ with
      | true, true =>
          claimedPlugin p host ⟨path, root, left⟩ = claimedPlugin p host ⟨path, root, right⟩
      | true, false => claimedPlugin p host ⟨path, root, left⟩ = none
      | false, true => claimedPlugin p host ⟨path, root, right⟩ = none
      | false, false => True := by
    rw [discovered_plugin hcapL, discovered_plugin hcapR]
    cases readable p host ⟨path, root, left⟩ with
    | true =>
        cases readable p host ⟨path, root, right⟩ with
        | true => exact Iff.rfl
        | false => exact Iff.rfl
    | false =>
        cases readable p host ⟨path, root, right⟩ with
        | true => exact eq_comm
        | false => exact iff_of_true rfl trivial
  constructor
  · intro hforged
    obtain ⟨hplugin, heased⟩ := hforged capL capR hcapL hcapR
    refine ⟨hsame.mp hplugin, fun hpath file hfile => ?_⟩
    rcases List.mem_pair.mp hfile with rfl | rfl
    · exact (not_eased_of_path hcapL hpath).mp (heased hpath).1
    · exact (not_eased_of_path hcapR hpath).mp (heased hpath).2
  · rintro ⟨hplugin, hdeclared⟩ otherL otherR hotherL hotherR
    obtain rfl := Option.some.inj (hotherL.symm.trans hcapL)
    obtain rfl := Option.some.inj (hotherR.symm.trans hcapR)
    refine ⟨hsame.mpr hplugin, fun hpath => ⟨?_, ?_⟩⟩
    · exact (not_eased_of_path hcapL hpath).mpr (hdeclared hpath _ (by simp))
    · exact (not_eased_of_path hcapR hpath).mpr (hdeclared hpath _ (by simp))

theorem nothing_declared_of_none {p : Platform} {host : DiscoveryHost} {left right : SourceText}
    (hpath : left.path = right.path) (hroot : left.root = right.root)
    (hleft : readable p host left = true ∧ declaredPlugin p host left = none)
    (hright : readable p host right = true ∧ declaredPlugin p host right = none) :
    NothingDeclared p host left right := by
  unfold NothingDeclared claimedPlugin
  rw [hleft.1, hright.1, hleft.2, hright.2, hpath, hroot]
  refine ⟨rfl, fun _ file hfile _ => ?_⟩
  rcases List.mem_pair.mp hfile with rfl | rfl
  · rw [hleft.2]
    rfl
  · rw [hright.2]
    rfl

/-- The texts of three `cap.json` files. -/
def notesText : String := "\x7b\"title\": \"Notes\"\x7d"

def diaryText : String := "\x7b\"title\": \"Diary\"\x7d"

def namingText : String := "\x7b\"plugin\": \"redteam-notes\"\x7d"

/-- A host that knows the three texts and no other file. -/
def manifestHost : DiscoveryHost where
  loads text :=
    if text = notesText then .value (.obj [("title", .str "Notes")])
    else if text = diaryText then .value (.obj [("title", .str "Diary")])
    else if text = namingText then .value (.obj [("plugin", .str "redteam-notes")])
    else .decodeError
  titled text := text
  isFile _ := false

/-- The `cap.json` of the package `notes`. -/
def notesManifest (content : String) : SourceText :=
  ⟨["srv", "plugins", "notes", "cap.json"], ["srv", "plugins"], content.toUTF8.data.toList⟩

/-- Two titles are attributed alike. -/
theorem plugin_unforged_iff_titles :
    Unforged .sample manifestHost ["srv", "plugins", "notes", "cap.json"] ["srv", "plugins"]
      notesText.toUTF8.data.toList diaryText.toUTF8.data.toList := by
  refine (plugin_unforged_iff _ _ _ _ _ _ ?_ ?_).mpr
    (@nothing_declared_of_none _ _ (notesManifest notesText) (notesManifest diaryText) rfl rfl ?_ ?_)
  · decide +kernel
  · decide +kernel
  · decide +kernel
  · decide +kernel

/-- A `cap.json` that names a plugin of its own takes the capability out of its package. -/
theorem plugin_declared_in_content :
    ¬ ∀ p host path root left right, Unforged p host path root left right := by
  intro hforged
  obtain ⟨capL, hcapL, hplugL⟩ := Option.map_eq_some_iff.mp
    (show (discoverFile .sample manifestHost
      (notesManifest notesText)).map (·.plugin) = some (some "notes") by decide +kernel)
  obtain ⟨capR, hcapR, hplugR⟩ := Option.map_eq_some_iff.mp
    (show (discoverFile .sample manifestHost
      (notesManifest namingText)).map (·.plugin) = some (some "redteam-notes") by decide +kernel)
  have hsame := (hforged .sample manifestHost _ _ _ _ capL capR hcapL hcapR).1
  rw [hplugL, hplugR] at hsame
  exact absurd hsame (by decide)

end Capmesh
