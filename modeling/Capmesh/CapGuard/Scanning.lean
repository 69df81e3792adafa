import Capmesh.CapGuard.Policy
import Capmesh.Model.Database

/-!
# The release scans

The malware scan of `malware_scan.py`, the prompt-injection scan of
`prompt_injection.py` with the severity model of `injection_allowlist.py`, and the
two wrappers through which a release runs them. The malware scan reports the digest
of the bytes it read in `fileHash`.
-/

namespace Capmesh

open Python

/-- What a path names. -/
inductive SourceFile where
  | missing
  | unreadable (size : Nat)
  | regular (content : List UInt8)
  deriving DecidableEq, Repr

/-- The file system at one moment. -/
abbrev FileSystem := String → SourceFile

/-- `MAX_SCAN_SIZE_BYTES`. -/
def maxScanSizeBytes : Nat := 4 * 1024 * 1024

/-- One entry of `MALWARE_SIGNATURES`. -/
structure MalwareSignature where
  pattern : String
  severity : Severity
  name : String
  description : String
  deriving DecidableEq, Repr

/-- `MALWARE_SIGNATURES`. -/
def malwareSignatures : List MalwareSignature :=
  [⟨"\\b(eval|exec)\\s*\\(\\s*(?:base64|codecs|marshal|pickle)\\.", .critical,
      "obfuscated_execution", "Obfuscated code execution"⟩,
    ⟨"os\\.system\\s*\\(.*\\$\\\x7b|subprocess\\.(call|Popen).*shell\\s*=\\s*True", .high,
      "shell_injection", "Potential shell injection"⟩,
    ⟨"\\bsocket\\.(connect|send|recv)\\b.*\\b\\d\x7b1,3\x7d\\.\\d\x7b1,3\x7d\\.\\d\x7b1,3\x7d" ++
      "\\.\\d\x7b1,3\x7d\\b", .high,
      "hardcoded_network_endpoint", "Hardcoded IP in network call"⟩,
    ⟨"\\bchmod\\s+777\\b|\\bos\\.chmod.*\\b0o777\\b", .high,
      "world_writable_permission", "Setting world-writable permissions"⟩,
    ⟨"\\bsudo\\s+(?:bash|sh|zsh|python|perl)\\s", .high,
      "sudo_shell_escalation", "Sudo shell escalation"⟩]

/-- A scan that could not be completed. -/
def scanError (text : String) : ScanResult :=
  { passed := some false, error := some text, findings := []
    criticalCount := none, highCount := none, fileHash := none, fileSize := none }

/-- The signatures of `MALWARE_SIGNATURES` that match a text. -/
def matchSignatures (p : Platform) (text : String) : List Finding :=
  malwareSignatures.filterMap fun sig =>
    (p.reSearch sig.pattern text).map fun found =>
      ⟨sig.name, sig.severity.text, sig.description,
        some (String.ofList (found.toList.take 200))⟩

/-- The result of scanning these bytes. -/
def scanBytes (p : Platform) (content : List UInt8) : ScanResult :=
  let findings := matchSignatures p (p.decodeUtf8 content)
  let critical := countSeverity findings "critical"
  let high := countSeverity findings "high"
  { passed := some (critical = 0 && high = 0), error := none, findings
    criticalCount := some critical, highCount := some high
    fileHash := some ("sha256:" ++ p.sha256 content), fileSize := some content.length }

/-- `scan_file`. -/
def scanFile (p : Platform) (fs : FileSystem) (path : String) : Except Failure ScanResult :=
  match fs path with
  | .missing => .ok (scanError "File not found")
  | .unreadable size =>
      if maxScanSizeBytes < size then .ok (scanError "File too large")
      else .error (.permission "Permission denied")
  | .regular content =>
      if maxScanSizeBytes < content.length then .ok (scanError "File too large")
      else .ok (scanBytes p content)

/-- `_scan_quarantined_content`. -/
def scanQuarantinedContent (p : Platform) (fs : FileSystem) (record : QuarantineRow) :
    Except Failure ScanResult :=
  if record.sourcePath = "" then .ok (scanError "quarantine item has no sourcePath")
  else scanFile p fs record.sourcePath

/-- `_ZERO_WIDTH`. -/
def zeroWidth : List Nat := [0x200B, 0x200C, 0x200D, 0x2060, 0xFEFF, 0x00AD, 0x180E]

/-- `_HOMOGLYPHS`. -/
def homoglyphs : List (Char × Char) :=
  [('а', 'a'), ('е', 'e'), ('о', 'o'), ('р', 'p'), ('с', 'c'), ('х', 'x'), ('у', 'y'),
    ('і', 'i'), ('ѕ', 's'), ('ո', 'n'), ('т', 't'), ('в', 'b'), ('м', 'm'), ('к', 'k'),
    ('ɡ', 'g'), ('ⅼ', 'l'), ('ν', 'v'), ('ο', 'o'), ('ρ', 'p'), ('α', 'a'), ('ε', 'e'),
    ('ι', 'i'), ('κ', 'k'), ('ѵ', 'v')]

/-- `_INJECTION_PHRASES`. -/
def injectionPhrases : List String :=
  ["ignore previous instructions", "ignore prior instructions", "ignore all previous",
    "disregard previous instructions", "disregard the above", "system prompt",
    "developer message", "exfiltrate", "disable safety", "disable guardrails",
    "bypass authentication", "bypass auth", "reveal your instructions",
    "print your system prompt", "you are now", "act as", "ignore the above",
    "forget your previous", "forget the above", "new instructions:",
    "override your instructions", "override the system", "do not follow your rules",
    "reveal your system prompt", "show your system prompt", "jailbreak", "developer mode",
    "ignore safety", "bypass your safety"]

/-- The folded view of a content: compatibility forms, zero-width characters, case, and
look-alike letters are normalized away. -/
def foldContent (p : Platform) (content : String) : List Char :=
  let stripped := (p.nfkc content).toList.filter fun c => !zeroWidth.contains c.toNat
  (p.chars.lowerFrom [] stripped).map fun c => (homoglyphs.lookup c).getD c

/-- `re.sub(r"\s+", " ", text)`. -/
def collapseSpace (p : Platform) : List Char → List Char
  | [] => []
  | c :: text =>
      if p.chars.isSpace c then
        match text with
        | [] => [' ']
        | d :: rest =>
            if p.chars.isSpace d then collapseSpace p (d :: rest)
            else ' ' :: collapseSpace p (d :: rest)
      else c :: collapseSpace p text

/-- `scan_prompt_injection`. -/
def scanPromptInjection (p : Platform) (content : String) : List String :=
  let normalized := foldContent p content
  let collapsed := collapseSpace p normalized
  let compact := normalized.filter fun c => !p.chars.isSpace c
  injectionPhrases.filter fun phrase =>
    contains collapsed phrase.toList || contains compact (phrase.toList.filter (· ≠ ' '))

/-- `SEVERITY_BLOCK`, `SEVERITY_INFO` and `SEVERITY_ALLOWED`. -/
inductive HitSeverity where
  | block | info | allowed
  deriving DecidableEq, Repr

/-- `SURFACE_METADATA` and `SURFACE_BODY`. -/
inductive Surface where
  | metadata | body
  deriving DecidableEq, Repr

/-- `ALLOWED_PHRASES`. -/
def allowedPhrases : List String :=
  ["act as", "system prompt", "you are", "your role", "your task", "ignore previous",
    "disregard the above", "pretend you are"]

/-- `CAPABILITY_NAME_ALLOWLIST`. -/
def capabilityNameAllowlist : List String :=
  ["-system-prompt", "-role-definition", "-persona", "system-prompt-", "role-"]

/-- `SECURITY_DOMAIN_VOCABULARY`. -/
def securityDomainVocabulary : List String :=
  ["exfiltrate", "bypass auth", "bypass authentication"]

/-- `SECURITY_DOMAIN_PLUGIN_PREFIXES`. -/
def securityDomainPluginPrefixes : List String := ["redteam-", "re-", "dfir-", "codeforensics-"]

/-- `is_security_domain_plugin`. -/
def isSecurityDomainPlugin (p : Platform) (plugin : Option String) : Bool :=
  present plugin &&
    securityDomainPluginPrefixes.any (startsWith (p.lower (p.stripSpace (plugin.getD ""))) ·)

/-- `classify_scan_result`: the severity of a hit and its reason. -/
def classifyScanResult (p : Platform) (phrase name : String) (kind plugin : Option String)
    (surface : Surface) : HitSeverity × String :=
  let phraseL := p.lower phrase
  let nameL := p.lower name
  let nameAllowlisted := capabilityNameAllowlist.any (endsWith nameL ·) ||
    capabilityNameAllowlist.any (startsWith nameL ·)
  let securityDomain := isSecurityDomainPlugin p plugin
  let pluginRepr := (plugin.map p.repr).getD "None"
  if securityDomainVocabulary.contains phraseL && securityDomain then
    (.info, "security-domain vocabulary " ++ p.repr phrase ++ " expected in " ++
      optOr kind "capability" ++ " from plugin " ++ pluginRepr ++ "; flagged but not blocking")
  else if securityDomain && surface = .body && !allowedPhrases.contains phraseL then
    (.info, "attack payload " ++ p.repr phrase ++ " in the body of " ++ pluginRepr ++
      " (offensive-security corpus); readable only via an explicit cap.load, " ++
      "flagged but not blocking")
  else if allowedPhrases.contains phraseL then
    if nameAllowlisted then
      (.allowed, "flagged phrase " ++ p.repr phrase ++ " expected in " ++
        optOr kind "capability" ++ " named " ++ p.repr name)
    else
      (.info, "benign authoring phrase " ++ p.repr phrase ++ "; flagged but not blocking")
  else (.block, "unrecognized injection indicator " ++ p.repr phrase ++ " in " ++ p.repr name)

/-- `should_block`. -/
def shouldBlock (p : Platform) (hits : List String) (name : String) (kind plugin : Option String)
    (surface : Surface) : Bool :=
  hits.any fun phrase => (classifyScanResult p phrase name kind plugin surface).1 = .block

/-- The metadata surface a release scans: the capability's name, title and description, or the
quarantine row's name when there is no capability. -/
def injectionSurface (record : QuarantineRow) (capability : Option Capability) : String :=
  let parts := match capability with
    | some cap => [cap.name, cap.title, cap.description]
    | none => [record.name]
  join "\n" (parts.filter (· ≠ ""))

/-- `_injection_verdict`: clean, blocked, or not evaluated, with the phrases found. -/
def injectionVerdict (p : Platform) (record : QuarantineRow) (capability : Option Capability) :
    Option Bool × List String :=
  let surface := injectionSurface record capability
  if p.stripSpace surface = "" then (none, [])
  else
    let hits := scanPromptInjection p surface
    if hits.isEmpty then (some true, hits)
    else
      let blocked := match capability with
        | some cap =>
            shouldBlock p hits cap.name (some cap.capabilityType.text) cap.plugin .metadata
        | none => shouldBlock p hits record.name (some record.capabilityType.text) none .metadata
      (some !blocked, hits)

end Capmesh
