import Capmesh.Python.Text

/-!
# Base64 with the alphabet of URLs

`base64.urlsafe_b64encode` without its padding, and `base64.urlsafe_b64decode` on a text of the
alphabet.
-/

namespace Python

namespace Base64

/-- The value of a character of the alphabet. -/
def value (c : Char) : Nat :=
  if c.isUpper then c.toNat - 65
  else if c.isLower then c.toNat - 71
  else if c.isDigit then c.toNat + 4
  else if c = '-' then 62
  else 63

/-- The bytes of a sequence of values, four to three. -/
def bytes : List Nat → List UInt8
  | a :: b :: c :: d :: rest =>
      UInt8.ofNat (a * 4 + b / 16) :: UInt8.ofNat (b % 16 * 16 + c / 4) ::
        UInt8.ofNat (c % 4 * 64 + d) :: bytes rest
  | [a, b, c] => [UInt8.ofNat (a * 4 + b / 16), UInt8.ofNat (b % 16 * 16 + c / 4)]
  | [a, b] => [UInt8.ofNat (a * 4 + b / 16)]
  | _ => []

/-- `base64.urlsafe_b64decode` of a text of the alphabet, padded. -/
def decode (text : String) : List UInt8 := bytes (text.toList.map value)

/-- The character of a value. -/
def letter (n : Nat) : Char :=
  if n < 26 then Char.ofNat (n + 65)
  else if n < 52 then Char.ofNat (n + 71)
  else if n < 62 then Char.ofNat (n - 4)
  else if n = 62 then '-'
  else '_'

/-- The values of a sequence of bytes, three to four. -/
def values : List UInt8 → List Nat
  | a :: b :: c :: rest =>
      a.toNat / 4 :: (a.toNat % 4 * 16 + b.toNat / 16) :: (b.toNat % 16 * 4 + c.toNat / 64) ::
        c.toNat % 64 :: values rest
  | [a, b] => [a.toNat / 4, a.toNat % 4 * 16 + b.toNat / 16, b.toNat % 16 * 4]
  | [a] => [a.toNat / 4, a.toNat % 4 * 16]
  | [] => []

/-- `base64.urlsafe_b64encode(data).rstrip("=")`. -/
def encode (data : List UInt8) : String := String.ofList ((values data).map letter)

theorem value_letter {n : Nat} (h : n < 64) : value (letter n) = n := by
  have hall : ∀ n < 64, value (letter n) = n := by decide
  exact hall n h

theorem letter_alphabet {n : Nat} (h : n < 64) :
    ((letter n).isAlphanum || letter n = '_' || letter n = '-') = true := by
  have hall : ∀ n < 64,
      ((letter n).isAlphanum || letter n = '_' || letter n = '-') = true := by decide
  exact hall n h

theorem values_lt (data : List UInt8) : ∀ n ∈ values data, n < 64 := by
  fun_induction values data with
  | case1 a b c rest ih =>
      have ha := a.toNat_lt
      have hb := b.toNat_lt
      have hc := c.toNat_lt
      intro n hn
      simp only [List.mem_cons] at hn
      rcases hn with rfl | rfl | rfl | rfl | hn
      · omega
      · omega
      · omega
      · omega
      · exact ih n hn
  | case2 a b =>
      have ha := a.toNat_lt
      have hb := b.toNat_lt
      intro n hn
      simp only [List.mem_cons, List.not_mem_nil, or_false] at hn
      omega
  | case3 a =>
      have ha := a.toNat_lt
      intro n hn
      simp only [List.mem_cons, List.not_mem_nil, or_false] at hn
      omega
  | case4 => exact nofun

theorem values_length (data : List UInt8) : (values data).length = (4 * data.length + 2) / 3 := by
  fun_induction values data with
  | case1 a b c rest ih =>
      simp only [List.length_cons, ih]
      omega
  | case2 a b => simp
  | case3 a => simp
  | case4 => rfl

theorem bytes_values (data : List UInt8) : bytes (values data) = data := by
  have hbyte : ∀ (byte : UInt8) (n : Nat), n = byte.toNat → UInt8.ofNat n = byte := by
    rintro byte n rfl
    exact UInt8.ofNat_toNat
  fun_induction values data with
  | case1 a b c rest ih =>
      have ha := a.toNat_lt
      have hb := b.toNat_lt
      have hc := c.toNat_lt
      rw [bytes, ih, hbyte a _ (by omega), hbyte b _ (by omega), hbyte c _ (by omega)]
  | case2 a b =>
      have ha := a.toNat_lt
      have hb := b.toNat_lt
      rw [bytes, hbyte a _ (by omega), hbyte b _ (by omega)]
  | case3 a =>
      have ha := a.toNat_lt
      rw [bytes, hbyte a _ (by omega)]
  | case4 => rfl

/-- What is encoded is decoded to what it was. -/
theorem decode_encode (data : List UInt8) : decode (encode data) = data := by
  have hvalues : ((values data).map letter).map value = values data := by
    rw [List.map_map]
    exact (List.map_congr_left fun n hn => value_letter (values_lt data n hn)).trans
      (List.map_id _)
  rw [decode, encode, String.toList_ofList, hvalues, bytes_values]

/-- The characters of an encoding. -/
theorem encode_alphabet (data : List UInt8) : ∀ c ∈ (encode data).toList,
    (c.isAlphanum || c = '_' || c = '-') = true := by
  intro c hc
  rw [encode, String.toList_ofList] at hc
  obtain ⟨n, hn, rfl⟩ := List.mem_map.mp hc
  exact letter_alphabet (values_lt data n hn)

theorem encode_length (data : List UInt8) :
    (encode data).toList.length = (4 * data.length + 2) / 3 := by
  rw [encode, String.toList_ofList, List.length_map, values_length]

end Base64

end Python
