import Mathlib
import Capmesh.Python.Json

/-!
# The parts of the standard library that rest on tables

Unicode classification and case mapping, compatibility normalization, SHA-256,
UTF-8 decoding with replacement, regular-expression search, and path resolution.
A `Runtime` fixes one implementation of each. What a development may rely on is
stated as a field: the character tables agree with ASCII on ASCII characters, and
resolving a path twice gives the path resolved once.
-/

namespace Python

theorem to_lower_of_not_upper {c : Char} (h : c.isUpper = false) : c.toLower = c := by
  have hcond : ¬ (c.val ≥ 'A'.val ∧ c.val ≤ 'Z'.val) := by simpa [Char.isUpper] using h
  simp only [Char.toLower, dif_neg hcond]

/-- The ASCII lower case of a capital letter is a small letter. -/
theorem to_lower_of_upper {c : Char} (h : c.isUpper = true) :
    c.toLower.isLower = true ∧ c.toLower.isUpper = false := by
  have hrange : 65 ≤ c.val.toNat ∧ c.val.toNat ≤ 90 := by
    simpa [Char.isUpper, UInt32.le_iff_toNat_le] using h
  have hlower : c.toLower.val = c.val + 32 := by
    have hcond : c.val ≥ 'A'.val ∧ c.val ≤ 'Z'.val := by simpa [Char.isUpper] using h
    simp only [Char.toLower, dif_pos hcond]
    rfl
  have hval : c.toLower.val.toNat = c.val.toNat + 32 := by
    rw [hlower, UInt32.toNat_add]
    show (c.val.toNat + 32) % 4294967296 = c.val.toNat + 32
    omega
  constructor
  · simp only [Char.isLower, ge_iff_le, UInt32.le_iff_toNat_le, hval, Bool.and_eq_true,
      decide_eq_true_eq]
    show 97 ≤ c.val.toNat + 32 ∧ c.val.toNat + 32 ≤ 122
    omega
  · simp only [Char.isUpper, ge_iff_le, UInt32.le_iff_toNat_le, hval, decide_eq_false_iff_not]
    show ¬ (65 ≤ c.val.toNat + 32 ∧ c.val.toNat + 32 ≤ 90)
    omega

/-- A character is its own ASCII lower case, or it is a capital letter. -/
theorem to_lower_cases (c : Char) : c.toLower = c ∨ (c.isAlphanum = true ∧
    c.toLower.isAlphanum = true) := by
  cases h : c.isUpper with
  | true => exact .inr (by simp [Char.isAlphanum, Char.isAlpha, h, (to_lower_of_upper h).1])
  | false => exact .inl (to_lower_of_not_upper h)

theorem to_lower_to_lower (c : Char) : c.toLower.toLower = c.toLower := by
  cases h : c.isUpper with
  | true => exact to_lower_of_not_upper (to_lower_of_upper h).2
  | false => rw [to_lower_of_not_upper h, to_lower_of_not_upper h]

/-- The ASCII characters `str.isspace` accepts. -/
def isAsciiSpace (c : Char) : Bool :=
  [0x09, 0x0A, 0x0B, 0x0C, 0x0D, 0x1C, 0x1D, 0x1E, 0x1F, 0x20].contains c.toNat

/-- The character tables behind `str.isalnum`, `\w`, `\s` and `str.lower`. The cased and the
case-ignorable characters decide the lower case of a capital sigma. -/
structure CharTable where
  isAlnum : Char → Bool
  isWord : Char → Bool
  isSpace : Char → Bool
  isCased : Char → Bool
  isCaseIgnorable : Char → Bool
  lower : Char → List Char
  isAlnum_ascii : ∀ c : Char, c.toNat < 128 → isAlnum c = c.isAlphanum
  isWord_ascii : ∀ c : Char, c.toNat < 128 → isWord c = (c.isAlphanum || c == '_')
  lower_ascii : ∀ c : Char, c.toNat < 128 → lower c = [c.toLower]
  isSpace_ascii : ∀ c : Char, c.toNat < 128 → isSpace c = isAsciiSpace c
  isAlnum_of_space : ∀ c : Char, isSpace c = true → isAlnum c = false
  lower_ne_nil : ∀ c : Char, lower c ≠ []
  lower_not_alnum : ∀ c : Char, isAlnum c = false → ∀ d ∈ lower c, isAlnum d = false
  /-- No character has ASCII punctuation in its lower case, except that character itself. -/
  lower_punctuation : ∀ c : Char, ∀ d ∈ lower c, d.toNat < 128 → d.isAlphanum = true ∨ d = c
  lower_lower : ∀ c : Char, ∀ d ∈ lower c, lower d = [d]
  lower_sigma : isAlnum 'Σ' = true → lower 'Σ' = ['σ']
  isAlnum_sigma : isAlnum 'σ' = isAlnum 'Σ' ∧ isAlnum 'ς' = isAlnum 'Σ'

namespace CharTable

/-- The tables that treat every character outside ASCII as neither a letter nor a space. -/
def ascii : CharTable where
  isAlnum := Char.isAlphanum
  isWord c := c.isAlphanum || c == '_'
  isSpace := isAsciiSpace
  isCased := Char.isAlpha
  isCaseIgnorable c := ['\'', '.', ':', '^', Char.ofNat 0x60].contains c
  lower c := [c.toLower]
  isAlnum_ascii _ _ := rfl
  isWord_ascii _ _ := rfl
  lower_ascii _ _ := rfl
  isSpace_ascii _ _ := rfl
  isAlnum_of_space c h := by
    have hval : c.val.toNat = c.toNat := rfl
    have hcode : c.toNat < 48 := by
      simp only [isAsciiSpace, List.contains_cons, List.contains_nil, Bool.or_false, Bool.or_eq_true,
        beq_iff_eq] at h
      omega
    simp only [Char.isAlphanum, Char.isAlpha, Char.isUpper, Char.isLower, Char.isDigit, ge_iff_le,
      UInt32.le_iff_toNat_le]
    simp
    omega
  lower_ne_nil _ := by simp
  lower_not_alnum c h d hd := by
    rw [List.mem_singleton.mp hd]
    rcases to_lower_cases c with hsame | ⟨halnum, -⟩
    · rw [hsame, h]
    · rw [h] at halnum
      cases halnum
  lower_punctuation c d hd _ := by
    rw [List.mem_singleton.mp hd]
    rcases to_lower_cases c with hsame | ⟨-, halnum⟩
    · exact .inr hsame
    · exact .inl halnum
  lower_lower c d hd := by
    rw [List.mem_singleton.mp hd, to_lower_to_lower]
  lower_sigma := by decide
  isAlnum_sigma := by decide

variable (table : CharTable)

/-- Whether a capital sigma is the last letter of its word: a cased character stands before it
and none after it, case-ignorable characters aside. `before` is the text before it, reversed. -/
def finalSigma (before after : List Char) : Bool :=
  (before.dropWhile table.isCaseIgnorable).head?.any table.isCased &&
    !(after.dropWhile table.isCaseIgnorable).head?.any table.isCased

/-- The lower case of one character of a text, by the text before it, reversed, and after it. -/
def lowerAt (before : List Char) (c : Char) (after : List Char) : List Char :=
  if c = 'Σ' && table.finalSigma before after then ['ς'] else table.lower c

/-- `str.lower`, for the rest of a text. -/
def lowerFrom (before : List Char) : List Char → List Char
  | [] => []
  | c :: after => table.lowerAt before c after ++ lowerFrom (c :: before) after

end CharTable

/-- The standard-library functions a program calls and does not define. -/
structure Runtime where
  chars : CharTable
  /-- `unicodedata.normalize("NFKC", text)`. -/
  nfkc : String → String
  /-- `hashlib.sha256(data).hexdigest()`. -/
  sha256 : List UInt8 → String
  /-- `data.decode("utf-8", errors="replace")`. -/
  decodeUtf8 : List UInt8 → String
  /-- The text of the first match of `re.search(pattern, text, IGNORECASE | MULTILINE)`. -/
  reSearch : String → String → Option String
  /-- `repr(text)`. -/
  repr : String → String
  /-- `str(Path(path).expanduser().resolve())`. -/
  normalizePath : String → String
  normalizePath_idem : ∀ path, normalizePath (normalizePath path) = normalizePath path
  normalizePath_ne : ∀ path, normalizePath path ≠ ""

namespace Runtime

variable (rt : Runtime)

/-- `text.lower()`. -/
def lower (text : String) : String := String.ofList (rt.chars.lowerFrom [] text.toList)

/-- `text.strip()`, which removes white space. -/
def stripSpace (text : String) : String := String.ofList (strip rt.chars.isSpace text.toList)

/-- The hexadecimal SHA-256 digest of a text's UTF-8 bytes. -/
def sha256Text (text : String) : String := rt.sha256 text.toUTF8.data.toList

end Runtime

end Python
