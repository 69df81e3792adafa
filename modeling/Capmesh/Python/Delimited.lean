import Mathlib
import Capmesh.Python.Json
import Capmesh.Python.Words

/-!
# Texts that show where they end

An encoding is read back from the front of a longer text when it shows where it ends. `Delimited`
says so of an encoding and of what may stand behind it. Sequences of such encodings are delimited
again, with separators between them or a terminator behind them (`flat_map_delimited`,
`separated_delimited`); lines and titled sections are read back from a text as a whole
(`lines_inj`, `sections_inj`). The JSON encodings of strings, of integers and of bytes are delimited.
-/

namespace Python

section

variable {α β : Type} {code : α → List β} {sep stop : β}

/-- The encoding shows where it ends, in front of what `after` allows. -/
def Delimited (code : α → List β) (after : List β → Prop) : Prop :=
  ∀ a b front back, after front → after back → code a ++ front = code b ++ back →
    a = b ∧ front = back

/-- Items with a separator between them. -/
def separated (code : α → List β) (sep : β) : List α → List β
  | [] => []
  | [a] => code a
  | a :: as => code a ++ sep :: separated code sep as

/-- A sequence behind which stands a terminator that begins no item. -/
theorem flat_map_delimited (hcode : Delimited code fun _ => True)
    (hstop : ∀ a, ∃ b rest, code a = b :: rest ∧ b ≠ stop) :
    Delimited (fun as : List α => as.flatMap code ++ [stop]) fun _ => True := by
  intro as bs front back _ _ heq
  have hcut : ∀ (a : α) (more : List β), code a ++ more ≠ stop :: front ∧
      code a ++ more ≠ stop :: back := by
    intro a more
    obtain ⟨b, rest, hb, hne⟩ := hstop a
    rw [hb, List.cons_append]
    exact ⟨fun h => hne (List.cons.inj h).1, fun h => hne (List.cons.inj h).1⟩
  induction as generalizing bs with
  | nil =>
      cases bs with
      | nil => exact ⟨rfl, (List.cons.inj heq).2⟩
      | cons b bs =>
          simp only [List.flatMap_cons, List.append_assoc, List.flatMap_nil, List.nil_append,
            List.singleton_append] at heq
          exact absurd heq.symm (hcut b _).1
  | cons a as ih =>
      cases bs with
      | nil =>
          simp only [List.flatMap_cons, List.append_assoc, List.flatMap_nil, List.nil_append,
            List.singleton_append] at heq
          exact absurd heq (hcut a _).2
      | cons b bs =>
          simp only [List.flatMap_cons, List.append_assoc] at heq
          obtain ⟨rfl, hrest⟩ := hcode a b _ _ trivial trivial heq
          obtain ⟨rfl, hback⟩ := ih bs (by simpa using hrest)
          exact ⟨rfl, hback⟩

/-- Separated items behind which stands a terminator. -/
theorem separated_delimited (hne : sep ≠ stop)
    (hcode : Delimited code fun rest => rest.head? = some sep ∨ rest.head? = some stop)
    (hstop : ∀ a, ∃ b rest, code a = b :: rest ∧ b ≠ stop) :
    Delimited (fun as : List α => separated code sep as ++ [stop]) fun _ => True := by
  intro as bs front back _ _ heq
  have hunfold : ∀ (a : α) (as : List α) (front : List β), ∃ rest,
      separated code sep (a :: as) ++ [stop] ++ front = code a ++ rest ∧
      (as = [] ∧ rest = stop :: front ∨
        as ≠ [] ∧ rest = sep :: (separated code sep as ++ [stop] ++ front)) := by
    intro a as front
    cases as with
    | nil => exact ⟨_, by simp [separated], .inl ⟨rfl, rfl⟩⟩
    | cons next as => exact ⟨_, by simp [separated], .inr ⟨by simp, rfl⟩⟩
  have hhead : ∀ {rest front : List β} {as : List α}, as = [] ∧ rest = stop :: front ∨
      as ≠ [] ∧ rest = sep :: (separated code sep as ++ [stop] ++ front) →
      rest.head? = some sep ∨ rest.head? = some stop := by
    rintro rest front as (⟨-, rfl⟩ | ⟨-, rfl⟩)
    · exact .inr rfl
    · exact .inl rfl
  induction as generalizing bs with
  | nil =>
      cases bs with
      | nil => exact ⟨rfl, (List.cons.inj heq).2⟩
      | cons b bs =>
          obtain ⟨rest, hrest, -⟩ := hunfold b bs back
          obtain ⟨c, more, hc, hcne⟩ := hstop b
          rw [hrest, hc] at heq
          exact absurd (List.cons.inj heq).1.symm hcne
  | cons a as ih =>
      obtain ⟨rest, hrest, hshape⟩ := hunfold a as front
      cases bs with
      | nil =>
          obtain ⟨c, more, hc, hcne⟩ := hstop a
          rw [hrest, hc] at heq
          exact absurd (List.cons.inj heq).1 hcne
      | cons b bs =>
          obtain ⟨others, hothers, hothershape⟩ := hunfold b bs back
          rw [hrest, hothers] at heq
          obtain ⟨rfl, hsame⟩ := hcode a b _ _ (hhead hshape) (hhead hothershape) heq
          rcases hshape with ⟨rfl, rfl⟩ | ⟨-, rfl⟩
          · rcases hothershape with ⟨rfl, rfl⟩ | ⟨-, rfl⟩
            · exact ⟨rfl, (List.cons.inj hsame).2⟩
            · exact absurd (List.cons.inj hsame).1.symm hne
          · rcases hothershape with ⟨rfl, rfl⟩ | ⟨-, rfl⟩
            · exact absurd (List.cons.inj hsame).1 hne
            · obtain ⟨rfl, hback⟩ := ih bs (List.cons.inj hsame).2
              exact ⟨rfl, hback⟩

/-- Lines without the separator are read back from their text. -/
theorem lines_inj {lines others : List (List β)} (hlines : ∀ line ∈ lines, sep ∉ line)
    (hothers : ∀ line ∈ others, sep ∉ line)
    (heq : lines.flatMap (· ++ [sep]) = others.flatMap (· ++ [sep])) : lines = others := by
  induction lines generalizing others with
  | nil =>
      cases others with
      | nil => rfl
      | cons other others => simp at heq
  | cons line lines ih =>
      cases others with
      | nil => simp at heq
      | cons other others =>
          obtain ⟨hline, htail⟩ := List.forall_mem_cons.mp hlines
          obtain ⟨hother, hothertail⟩ := List.forall_mem_cons.mp hothers
          simp only [List.flatMap_cons, List.append_assoc, List.singleton_append] at heq
          obtain ⟨hsame, hrest⟩ := append_cons_inj_of_not_mem hline hother heq
          rw [hsame, ih htail hothertail hrest]

/-- The first lines of two texts are the same, or a head, which may have the terminator in it,
begins with the line of the other text. -/
theorem line_or_begins {head head' tail tail' rest rest' : List β} (htail : stop ∉ tail)
    (htail' : stop ∉ tail')
    (heq : head ++ tail ++ stop :: rest = head' ++ tail' ++ stop :: rest') :
    (head ++ tail = head' ++ tail' ∧ rest = rest') ∨
      (∃ back, head' = head ++ tail ++ stop :: back) ∨
      ∃ back, head = head' ++ tail' ++ stop :: back := by
  -- A longer line has the shorter one in front, and that reaches no further than its head.
  have hlonger : ∀ {head tail line : List β} {more : List β}, stop ∉ tail →
      head ++ tail = line ++ stop :: more → ∃ back, head = line ++ stop :: back := by
    intro head tail line more htail hline
    rcases List.append_eq_append_iff.mp hline with ⟨between, rfl, hmore⟩ | ⟨between, hhead, hmore⟩
    · exact absurd (hmore ▸ List.mem_append_right _ List.mem_cons_self) htail
    · cases between with
      | nil => exact absurd (List.nil_append tail ▸ hmore ▸ List.mem_cons_self) htail
      | cons c between =>
          obtain ⟨rfl, -⟩ := List.cons.inj hmore
          exact ⟨between, hhead⟩
  rcases List.append_eq_append_iff.mp heq with ⟨between, hline, hrest⟩ | ⟨between, hline, hrest⟩
  · cases between with
    | nil => exact .inl ⟨by rw [hline, List.append_nil], (List.cons.inj hrest).2⟩
    | cons c between =>
        obtain ⟨rfl, -⟩ := List.cons.inj hrest
        exact .inr (.inl (hlonger htail' hline))
  · cases between with
    | nil => exact .inl ⟨by rw [hline, List.append_nil], (List.cons.inj hrest).2.symm⟩
    | cons c between =>
        obtain ⟨rfl, -⟩ := List.cons.inj hrest
        exact .inr (.inr (hlonger htail hline))

/-- Lines with a head and a tail are read back from their text when no head of the one text begins
with a line of the other. -/
theorem headed_lines_inj (stop : β) (lines others : List (List β × List β))
    (hlines : ∀ line ∈ lines, stop ∉ line.2) (hothers : ∀ line ∈ others, stop ∉ line.2)
    (hapart : ∀ line ∈ lines, ∀ other ∈ others, ∀ back,
      other.1 ≠ line.1 ++ line.2 ++ stop :: back ∧ line.1 ≠ other.1 ++ other.2 ++ stop :: back)
    (heq : lines.flatMap (fun line => line.1 ++ line.2 ++ [stop]) =
      others.flatMap fun line => line.1 ++ line.2 ++ [stop]) :
    lines.map (fun line => line.1 ++ line.2) = others.map fun line => line.1 ++ line.2 := by
  induction lines generalizing others with
  | nil =>
      cases others with
      | nil => rfl
      | cons other others => simp at heq
  | cons line lines ih =>
      cases others with
      | nil => simp at heq
      | cons other others =>
          obtain ⟨hline, htail⟩ := List.forall_mem_cons.mp hlines
          obtain ⟨hother, hothertail⟩ := List.forall_mem_cons.mp hothers
          have hfirst := hapart line List.mem_cons_self other List.mem_cons_self
          simp only [List.flatMap_cons, List.append_assoc _ [stop], List.singleton_append] at heq
          rcases line_or_begins hline hother heq with
            ⟨hsame, hrest⟩ | ⟨back, hback⟩ | ⟨back, hback⟩
          · rw [List.map_cons, List.map_cons, hsame, ih _ htail hothertail (fun a ha b hb =>
              hapart a (List.mem_cons_of_mem _ ha) b (List.mem_cons_of_mem _ hb)) hrest]
          · exact absurd hback (hfirst back).1
          · exact absurd hback (hfirst back).2

/-- Sections are read back from their lines when no line of a section is a title. -/
theorem sections_inj {title : α → β} {titles : List α} {body other : α → List β}
    (hbody : ∀ a ∈ titles, ∀ b ∈ titles, title b ∉ body a)
    (hother : ∀ a ∈ titles, ∀ b ∈ titles, title b ∉ other a)
    (heq : titles.flatMap (fun a => title a :: body a) =
      titles.flatMap fun a => title a :: other a) : ∀ a ∈ titles, body a = other a := by
  induction titles with
  | nil => exact fun a ha => absurd ha List.not_mem_nil
  | cons first titles ih =>
      simp only [List.flatMap_cons, List.cons_append, List.cons.injEq, true_and] at heq
      have hrest : ∀ a ∈ titles, ∀ b ∈ titles, title b ∉ body a := fun a ha b hb =>
        hbody a (List.mem_cons_of_mem _ ha) b (List.mem_cons_of_mem _ hb)
      have hotherrest : ∀ a ∈ titles, ∀ b ∈ titles, title b ∉ other a := fun a ha b hb =>
        hother a (List.mem_cons_of_mem _ ha) b (List.mem_cons_of_mem _ hb)
      have hsame : body first = other first ∧
          titles.flatMap (fun a => title a :: body a) =
            titles.flatMap fun a => title a :: other a := by
        cases titles with
        | nil => simpa using heq
        | cons second titles =>
            have hfirst := hbody first List.mem_cons_self second (by simp)
            have hfirstother := hother first List.mem_cons_self second (by simp)
            simp only [List.flatMap_cons, List.cons_append] at heq ⊢
            obtain ⟨hbodies, hbacks⟩ := append_cons_inj_of_not_mem hfirst hfirstother heq
            exact ⟨hbodies, congrArg (title second :: ·) hbacks⟩
      intro a ha
      rcases List.mem_cons.mp ha with rfl | ha
      · exact hsame.1
      · exact ih hrest hotherrest hsame.2 a ha

end

/-! ### JSON texts -/

section

variable {c d : Char} {text other : String} {front back : List Char}

/-- The character that an escape stands for, and what follows it. -/
def unescape : List Char → Option (Char × List Char)
  | '\\' :: 'u' :: _ :: _ :: high :: low :: rest =>
      ((List.range 32).find? fun n => Json.hexDigits n = [high, low]).map (Char.ofNat ·, rest)
  | '\\' :: 'n' :: rest => some ('\n', rest)
  | '\\' :: 'r' :: rest => some ('\r', rest)
  | '\\' :: 't' :: rest => some ('\t', rest)
  | '\\' :: 'b' :: rest => some (Char.ofNat 8, rest)
  | '\\' :: 'f' :: rest => some (Char.ofNat 12, rest)
  | '\\' :: c :: rest => some (c, rest)
  | c :: rest => some (c, rest)
  | [] => none

theorem unescape_escape (c : Char) (rest : List Char) :
    unescape (Json.escapeChar c ++ rest) = some (c, rest) := by
  have hcode : ∀ n, c.toNat = n → c = Char.ofNat n := by
    rintro n rfl
    exact (Char.ofNat_toNat c).symm
  have hdigits : ∀ n < 32,
      (List.range 32).find? (fun m => Json.hexDigits m = Json.hexDigits n) = some n := by decide
  unfold Json.escapeChar
  split_ifs with hquote hslash hline hreturn htab hback hfeed hcontrol
  · obtain rfl := hcode 34 hquote
    rfl
  · obtain rfl := hslash
    rfl
  · obtain rfl := hcode 10 hline
    rfl
  · obtain rfl := hcode 13 hreturn
    rfl
  · obtain rfl := hcode 9 htab
    rfl
  · obtain rfl := hcode 8 hback
    rfl
  · obtain rfl := hcode 12 hfeed
    rfl
  · have hfind := hdigits c.toNat hcontrol
    show ((List.range 32).find? fun n => Json.hexDigits n = Json.hexDigits c.toNat).map
      (Char.ofNat ·, rest) = some (c, rest)
    rw [hfind, Option.map_some, Char.ofNat_toNat]
  · simp [unescape, hslash]

/-- No escape begins with a quote. -/
theorem escape_head (c : Char) : ∃ d rest, Json.escapeChar c = d :: rest ∧ d ≠ '"' := by
  unfold Json.escapeChar
  split_ifs with hquote
  all_goals first
    | exact ⟨'\\', _, rfl, by decide⟩
    | exact ⟨c, [], rfl, fun h => hquote (by rw [h]; rfl)⟩

/-- An escape has no line feed. -/
theorem escape_plain (c : Char) : '\n' ∉ Json.escapeChar c := by
  have hdigits : ∀ n < 32, '\n' ∉ Json.hexDigits n := by decide
  unfold Json.escapeChar
  split_ifs with hquote hslash hline hreturn htab hback hfeed hcontrol
  · have hne : c ≠ '\n' := by
      rintro rfl
      exact absurd hquote (by decide)
    simp [Ne.symm hne]
  · decide
  · decide
  · decide
  · decide
  · decide
  · decide
  · simp [hdigits c.toNat hcontrol]
  · rw [List.mem_singleton]
    rintro rfl
    exact hline rfl

theorem escape_delimited : Delimited Json.escapeChar fun _ => True := by
  intro c d front back _ _ heq
  have hread := congrArg unescape heq
  rw [unescape_escape, unescape_escape] at hread
  exact Prod.mk.inj (Option.some.inj hread)

theorem quote_to_list (text : String) :
    (Json.quote text).toList = '"' :: (text.toList.flatMap Json.escapeChar ++ ['"']) := by
  simp [Json.quote]

theorem quote_delimited : Delimited (fun text => (Json.quote text).toList) fun _ => True := by
  intro text other front back _ _ heq
  simp only [quote_to_list, List.cons_append, List.cons.injEq, true_and] at heq
  obtain ⟨hsame, hrest⟩ :=
    flat_map_delimited escape_delimited escape_head text.toList other.toList front back trivial
      trivial heq
  exact ⟨String.toList_inj.mp hsame, hrest⟩

/-- The characters of an integer. -/
theorem int_text_char (n : Int) : ∀ c ∈ (toString n).toList, c = '-' ∨ c.isDigit = true := by
  have hnat : ∀ n : Nat, ∀ c ∈ (toString n).toList, c.isDigit = true := by
    intro n c hc
    have hmem : c ∈ Nat.toDigits 10 n := by simpa using hc
    exact Nat.isDigit_of_mem_toDigits (by omega) (by omega) hmem
  intro c hc
  cases n with
  | ofNat n => exact .inr (hnat n c hc)
  | negSucc n =>
      have htext : toString (Int.negSucc n) = "-" ++ toString (n + 1) := rfl
      rw [htext, String.toList_append] at hc
      rcases List.mem_append.mp hc with hsign | hc
      · exact .inl (by simpa using hsign)
      · exact .inr (hnat (n + 1) c hc)

/-- An integer ends where its digits end. -/
theorem int_delimited : Delimited (fun n : Int => (toString n).toList)
    fun rest => ∀ c ∈ rest.head?, c ≠ '-' ∧ c.isDigit = false := by
  intro m n front back hfront hback heq
  dsimp only at heq
  let inside (c : Char) : Bool := c = '-' || c.isDigit
  have hint : ∀ n : Int, ∀ c ∈ (toString n).toList, inside c = true := fun n c hc => by
    simpa [inside] using int_text_char n c hc
  have hcut : ∀ (n : Int) (rest : List Char),
      (∀ c ∈ rest.head?, c ≠ '-' ∧ c.isDigit = false) →
      ((toString n).toList ++ rest).takeWhile inside = (toString n).toList := by
    intro n rest hrest
    rw [List.takeWhile_append_of_pos (hint n)]
    cases rest with
    | nil => simp
    | cons c rest => simp [inside, hrest c rfl]
  have hsame : (toString m).toList = (toString n).toList := by
    rw [← hcut m front hfront, ← hcut n back hback, heq]
  refine ⟨Int.repr_injective (String.toList_inj.mp hsame), ?_⟩
  rw [hsame] at heq
  exact List.append_cancel_left heq

/-- `data.hex()`. -/
def hexText (data : List UInt8) : String :=
  String.ofList (data.flatMap fun byte => Json.hexDigits byte.toNat)

/-- The digits of a text determine its bytes. -/
theorem hex_text_inj {data others : List UInt8} (h : hexText data = hexText others) :
    data = others := by
  have hdigit : ∀ n < 16, ∀ m < 16, (if n < 10 then Char.ofNat (48 + n) else Char.ofNat (87 + n)) =
      (if m < 10 then Char.ofNat (48 + m) else Char.ofNat (87 + m)) → n = m := by decide
  have hread : ∀ n < 256, ∀ m < 256, Json.hexDigits n = Json.hexDigits m → n = m := by
    intro n hn m hm hsame
    obtain ⟨hhigh, hlow⟩ := List.cons.inj hsame
    have hquotient := hdigit (n / 16) (by omega) (m / 16) (by omega) hhigh
    have hremainder := hdigit (n % 16) (by omega) (m % 16) (by omega) (List.cons.inj hlow).1
    omega
  have hchars := String.ofList_injective h
  clear h
  induction data generalizing others with
  | nil =>
      cases others with
      | nil => rfl
      | cons other others => simp [Json.hexDigits] at hchars
  | cons byte data ih =>
      cases others with
      | nil => simp [Json.hexDigits] at hchars
      | cons other others =>
          simp only [List.flatMap_cons] at hchars
          obtain ⟨hbyte, hrest⟩ := List.append_inj hchars rfl
          have hsame := hread _ byte.toNat_lt _ other.toNat_lt hbyte
          rw [UInt8.toNat_inj.mp hsame, ih hrest]

end

end Python
