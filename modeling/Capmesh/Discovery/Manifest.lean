import Capmesh.Governance.Promotion

/-!
# URIs of discovered capabilities

`capability_uri` of `manifest.py`: the address and the canonical key that discovery composes
for a capability. A capability without a plugin gets the digest of its path behind its name,
so that two of one name stay apart.
-/

namespace Capmesh

open Python

/-- `short_hash`: twelve digits of the digest. -/
def shortHash (p : Platform) (text : String) : String :=
  String.ofList ((p.sha256Text text).toList.take 12)

/-- `capability_uri`: the URI and the canonical key. -/
def capabilityUri (p : Platform) (type : String) (plugin : Option String)
    (name version fallback : String) : String × String :=
  let plug := slugify p (optOr plugin "global")
  let slug := slugify p name
  let version := slugify p (orElse version "0.1.0")
  if plug = "global" ∧ fallback ≠ "" then
    ("cap://asg.local/" ++ (type ++ "/" ++ plug ++ "." ++ slug ++ "-" ++ shortHash p fallback ++
        "@" ++ version),
      type ++ ":" ++ plug ++ ":" ++ slug ++ ":" ++ version ++ ":" ++ shortHash p fallback)
  else
    ("cap://asg.local/" ++ (type ++ "/" ++ plug ++ "." ++ slug ++ "@" ++ version),
      type ++ ":" ++ plug ++ ":" ++ slug ++ ":" ++ version)

end Capmesh
