import Mathlib.Data.List.Basic

/-!
# The characters of an ASCII text

`String.toList` decodes a text from its bytes and reads them once more for every character.
`fastChars` reads the bytes of an ASCII text once; `fast_chars_eq` puts it in the place of
`String.toList` before a long text is evaluated.
-/

namespace Python

/-- Whether all bytes of a text are ASCII. -/
def hasAsciiBytes (text : String) : Bool :=
  text.toByteArray.data.toList.all fun byte => byte.toNat < 128

/-- The characters of a text, read off its bytes where each byte is a character. -/
def fastChars (text : String) : List Char :=
  if hasAsciiBytes text then
    text.toByteArray.data.toList.map fun byte => Char.ofNat byte.toNat
  else text.toList

theorem utf8_encode_data (chars : List Char) :
    (List.utf8Encode chars).data.toList = chars.flatMap String.utf8EncodeChar := by
  simp [List.utf8Encode]

theorem decode_ascii {c : Char} (h : ∀ byte ∈ String.utf8EncodeChar c, byte.toNat < 128) :
    (String.utf8EncodeChar c).map (fun byte => Char.ofNat byte.toNat) = [c] := by
  unfold String.utf8EncodeChar at h ⊢
  dsimp only at h ⊢
  by_cases hsmall : c.val.toNat ≤ 0x7f
  · have hvalue : (UInt8.ofNat c.val.toNat).toNat = c.toNat := by
      rw [UInt8.toNat_ofNat']
      exact Nat.mod_eq_of_lt (by omega)
    rw [if_pos hsmall, List.map_cons, List.map_nil, hvalue, Char.ofNat_toNat]
  · -- the first byte of a longer encoding is not ASCII
    exfalso
    rw [if_neg hsmall] at h
    split at h
    · have hfirst := h _ List.mem_cons_self
      simp at hfirst
      omega
    · split at h
      · have hfirst := h _ List.mem_cons_self
        simp at hfirst
        omega
      · have hfirst := h _ List.mem_cons_self
        simp at hfirst
        omega

theorem fast_chars_eq (text : String) : fastChars text = text.toList := by
  unfold fastChars
  split
  · rename_i hascii
    obtain ⟨chars, rfl⟩ : ∃ chars, text = String.ofList chars :=
      ⟨text.toList, String.ofList_toList.symm⟩
    unfold hasAsciiBytes at hascii
    rw [String.toByteArray_ofList, utf8_encode_data] at hascii ⊢
    rw [String.toList_ofList]
    induction chars with
    | nil => rfl
    | cons c chars ih =>
        simp only [List.flatMap_cons, List.all_append, Bool.and_eq_true, List.map_append] at hascii ⊢
        rw [ih hascii.2, decode_ascii (by simpa using hascii.1)]
        rfl
  · rfl

end Python
