import Capmesh.Versions.Precedence

/-!
# Version texts of SemVer 2.0.0

The versions the specification admits, each with its text: numbers have no leading zero, and an
identifier of a pre-release is a number or holds a character that is no digit.
-/

namespace Versions

/-- `[0-9A-Za-z-]`. -/
def isIdChar (c : Char) : Bool := c.isAlphanum || c == '-'

/-- An identifier of a pre-release. -/
inductive PreIdentifier where
  | numeric (n : Nat)
  | alphanumeric (characters : List Char) (valid : ∀ c ∈ characters, isIdChar c = true)
      (notNumber : ∃ c ∈ characters, c.isDigit = false)

/-- An identifier of build metadata. -/
structure BuildIdentifier where
  characters : List Char
  nonempty : characters ≠ []
  valid : ∀ c ∈ characters, isIdChar c = true

/-- A version of SemVer 2.0.0. -/
structure SemVer where
  major : Nat
  minor : Nat
  patch : Nat
  prerelease : List PreIdentifier
  build : List BuildIdentifier

namespace PreIdentifier

/-- The text of an identifier. -/
def spell : PreIdentifier → List Char
  | numeric n => Nat.toDigits 10 n
  | alphanumeric characters _ _ => characters

/-- What precedence sees of an identifier. -/
def identifier : PreIdentifier → Identifier
  | numeric n => .numeric n
  | alphanumeric characters _ _ => .text (String.ofList characters)

end PreIdentifier

namespace SemVer

/-- The text of the pre-release, with its hyphen. -/
def prereleaseText (v : SemVer) : List Char :=
  if v.prerelease.isEmpty then [] else '-' :: ['.'].intercalate (v.prerelease.map (·.spell))

/-- The text of the build metadata, with its plus sign. -/
def buildText (v : SemVer) : List Char :=
  if v.build.isEmpty then [] else '+' :: ['.'].intercalate (v.build.map (·.characters))

/-- The characters of a version. -/
def spell (v : SemVer) : List Char :=
  Nat.toDigits 10 v.major ++ '.' :: (Nat.toDigits 10 v.minor ++ '.' ::
    (Nat.toDigits 10 v.patch ++ (v.prereleaseText ++ v.buildText)))

/-- The text of a version. -/
def text (v : SemVer) : String := String.ofList v.spell

/-- What precedence sees of a version. -/
def version (v : SemVer) : Version :=
  ⟨v.major, v.minor, v.patch,
    if v.prerelease.isEmpty then none else some (v.prerelease.map (·.identifier))⟩

/-- Precedence of versions, in which build metadata takes no part. -/
def precedence (v w : SemVer) : Ordering := v.version.order w.version

end SemVer

theorem digit_is_id_char {c : Char} (h : c.isDigit = true) : isIdChar c = true := by
  simp [isIdChar, Char.isAlphanum, h]

theorem PreIdentifier.spell_valid (part : PreIdentifier) : ∀ c ∈ part.spell, isIdChar c = true := by
  cases part with
  | numeric n => exact fun c hc => digit_is_id_char (Nat.isDigit_of_mem_toDigits (by omega) (by omega) hc)
  | alphanumeric characters valid _ => exact valid

end Versions
