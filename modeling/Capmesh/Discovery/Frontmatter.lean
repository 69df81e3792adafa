import Capmesh.CapGuard.Scanning

/-!
# Front matter

`parse_frontmatter`, `first_paragraph` and `split_keywords` of `manifest.py`: the fields between
the two rules at the head of a markdown file, and the text after them. A field is a text, or a
truth value when its text is `true` or `false`.
-/

namespace Capmesh

open Python

/-- `value.strip('"').strip("'")`. -/
def unquote (value : List Char) : List Char := strip (· = '\'') (strip (· = '"') value)

/-- Whether a line starts with a space or a tab. -/
def indented (line : List Char) : Bool :=
  match line.head? with
  | some c => c = ' ' || c = '\t'
  | none => false

/-- The value of a field on one line: a truth value, or the text. -/
def scalarValue (p : Platform) (value : List Char) : Json :=
  let lower := p.lower (String.ofList value)
  if lower = "true" || lower = "false" then .bool (lower = "true") else .str (String.ofList value)

/-- The loop over the lines between the rules; every turn takes at least one line. -/
def frontmatterData (p : Platform) : Nat → List (List Char) → Dict → Dict
  | 0, _, data => data
  | _, [], data => data
  | fuel + 1, line :: rest, data =>
      let stripped := strip p.chars.isSpace line
      if stripped.isEmpty || (line.dropWhile p.chars.isSpace).head? = some '#' || !line.contains ':'
      then frontmatterData p fuel rest data
      else
        let key := String.ofList (strip p.chars.isSpace (line.takeWhile (· ≠ ':')))
        let value := unquote (strip p.chars.isSpace ((line.dropWhile (· ≠ ':')).drop 1))
        if value.isEmpty then
          -- A scalar that wraps onto indented lines.
          let wrapped := (rest.takeWhile indented).map (strip p.chars.isSpace)
          let text := if wrapped.isEmpty then []
            else unquote (strip p.chars.isSpace (List.intercalate [' '] wrapped))
          frontmatterData p fuel (rest.dropWhile indented) (data.set key (.str (String.ofList text)))
        else if ["|", "|-", ">", ">-"].contains (String.ofList value) then
          let inside := fun line : List Char =>
            indented line || (strip p.chars.isSpace line).isEmpty
          let block := (rest.takeWhile inside).map (strip p.chars.isSpace)
          frontmatterData p fuel (rest.dropWhile inside) (data.set key
            (.str (String.ofList (strip p.chars.isSpace (List.intercalate ['\n'] block)))))
        else frontmatterData p fuel rest (data.set key (scalarValue p value))

/-- Whether a line is one of the two rules. -/
def isRule (p : Platform) (line : List Char) : Bool :=
  strip p.chars.isSpace line = "---".toList

/-- `parse_frontmatter`: the fields, and the text after them. -/
def parseFrontmatter (p : Platform) (text : String) : Dict × String :=
  match splitLines text.toList with
  | [] => ([], text)
  | first :: rest =>
      if !isRule p first then ([], text)
      else match rest.dropWhile (!isRule p ·) with
        | [] => ([], text)
        | _ :: body =>
            let raw := rest.takeWhile (!isRule p ·)
            (frontmatterData p raw.length raw [],
              String.ofList (List.intercalate ['\n'] body))

/-- The lines of a text from its first paragraph with words: the paragraph on one line. A paragraph
is a run of lines that are not blank. -/
def firstParagraphOf (p : Platform) : Nat → List (List Char) → List Char
  | 0, _ => []
  | fuel + 1, lines =>
      let blank := fun line : List Char => (strip p.chars.isSpace line).isEmpty
      match lines.dropWhile blank with
      | [] => []
      | rest =>
          let block := rest.takeWhile (!blank ·)
          let cleaned := strip (fun c => c = ' ' || c = '#')
            (collapseSpace p (List.intercalate ['\n'] block))
          if cleaned.isEmpty then firstParagraphOf p fuel (rest.dropWhile (!blank ·)) else cleaned

/-- `first_paragraph`. -/
def firstParagraph (p : Platform) (text : String) : String :=
  let lines := splitOn '\n' (strip p.chars.isSpace text.toList)
  String.ofList (firstParagraphOf p lines.length lines)

/-- `split_keywords`. -/
def splitKeywords (p : Platform) (raw : String) : List String :=
  let parts := splitOn ',' (raw.toList.map fun c => if c = ';' || c = '\n' then ',' else c)
  ((parts.map (strip p.chars.isSpace)).filter (!·.isEmpty)).map String.ofList

/-- A skill with a wrapped description and a truth value. -/
example : parseFrontmatter .sample
    "---\nname: notes\ndescription:\n  Keeps\n  notes.\nshared: True\n---\n# Notes\n" =
    ([("name", .str "notes"), ("description", .str "Keeps notes."), ("shared", .bool true)],
      "# Notes") := by decide +kernel

end Capmesh
