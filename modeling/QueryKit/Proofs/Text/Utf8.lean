import QueryKit.Text.Utf8

/-!
# Reading what was written in UTF-8

- `utf8Run_encodeChar`: the bytes of a character are read as this character, whatever follows.
- `decodeLossy_toUTF8`: the bytes of a text are read as this text.
-/

namespace QueryKit.Text

variable {b code low high after : Nat} {bs : List UInt8}

/-! ## Single bytes -/

theorem utf8Run_ascii {x : UInt8} (h : x.toNat < 0x80) :
    utf8Run .start (x :: bs) = Char.ofNat x.toNat :: utf8Run .start bs := by
  simp [utf8Run, utf8Step, utf8Start, h]

theorem utf8Run_lead {x : UInt8} (hx : ¬ x.toNat < 0x80)
    (h : utf8Lead x.toNat = some (low, high, after)) :
    utf8Run .start (x :: bs) =
      utf8Run (.inside (utf8LeadBits x.toNat) low high after) bs := by
  simp [utf8Run, utf8Step, utf8Start, hx, h]

theorem utf8Run_more {x : UInt8} (h : low ≤ x.toNat ∧ x.toNat ≤ high) :
    utf8Run (.inside code low high (after + 1)) (x :: bs) =
      utf8Run (.inside (code * 64 + (x.toNat - 0x80)) 0x80 0xBF after) bs := by
  simp [utf8Run, utf8Step, h]

theorem utf8Run_last {x : UInt8} (h : low ≤ x.toNat ∧ x.toNat ≤ high) :
    utf8Run (.inside code low high 0) (x :: bs) =
      Char.ofNat (code * 64 + (x.toNat - 0x80)) :: utf8Run .start bs := by
  simp [utf8Run, utf8Step, h]

/-! ## Characters -/

/-- The bounds of the byte after the first one of a character of three bytes. -/
theorem utf8Lead_three {n : Nat} (h : n < 16) :
    utf8Lead (n + 224) = some (if n = 0 then 0xA0 else 0x80, if n = 13 then 0x9F else 0xBF, 1) := by
  revert n
  decide

/-- The bounds of the byte after the first one of a character of four bytes. -/
theorem utf8Lead_four {n : Nat} (h : n < 5) :
    utf8Lead (n + 240) = some (if n = 0 then 0x90 else 0x80, if n = 4 then 0x8F else 0xBF, 2) := by
  revert n
  decide

theorem utf8Lead_two {n : Nat} (h : 2 ≤ n ∧ n < 32) :
    utf8Lead (n + 192) = some (0x80, 0xBF, 0) := by
  rw [utf8Lead, if_pos (by omega)]

theorem utf8Run_two {n : Nat} (h : 0x80 ≤ n ∧ n ≤ 0x7FF) :
    utf8Run .start (UInt8.ofNat (n / 64 % 32 + 192) :: UInt8.ofNat (n % 64 + 128) :: bs) =
      Char.ofNat n :: utf8Run .start bs := by
  have hx : (UInt8.ofNat (n / 64 % 32 + 192)).toNat = n / 64 + 192 := by
    rw [UInt8.toNat_ofNat_of_lt' (by change _ < 256; omega)]
    omega
  have hy : (UInt8.ofNat (n % 64 + 128)).toNat = n % 64 + 128 :=
    UInt8.toNat_ofNat_of_lt' (by change _ < 256; omega)
  rw [utf8Run_lead (by omega) (by rw [hx]; exact utf8Lead_two (by omega)), utf8Run_last (by omega),
    hx, hy, utf8LeadBits, if_pos (by omega)]
  exact congrArg (Char.ofNat · :: utf8Run .start bs) (by omega)

theorem utf8Run_three {n : Nat} (h : 0x800 ≤ n ∧ n ≤ 0xFFFF) (hv : n < 0xD800 ∨ 0xDFFF < n) :
    utf8Run .start (UInt8.ofNat (n / 4096 % 16 + 224) :: UInt8.ofNat (n / 64 % 64 + 128) ::
      UInt8.ofNat (n % 64 + 128) :: bs) = Char.ofNat n :: utf8Run .start bs := by
  have hx : (UInt8.ofNat (n / 4096 % 16 + 224)).toNat = n / 4096 + 224 := by
    rw [UInt8.toNat_ofNat_of_lt' (by change _ < 256; omega)]
    omega
  have hy : (UInt8.ofNat (n / 64 % 64 + 128)).toNat = n / 64 % 64 + 128 :=
    UInt8.toNat_ofNat_of_lt' (by change _ < 256; omega)
  have hz : (UInt8.ofNat (n % 64 + 128)).toNat = n % 64 + 128 :=
    UInt8.toNat_ofNat_of_lt' (by change _ < 256; omega)
  have hbounds : (if n / 4096 = 0 then 0xA0 else 0x80) ≤ n / 64 % 64 + 128 ∧
      n / 64 % 64 + 128 ≤ (if n / 4096 = 13 then 0x9F else 0xBF) := by
    constructor <;> split <;> omega
  rw [utf8Run_lead (by omega) (by rw [hx]; exact utf8Lead_three (by omega)),
    utf8Run_more (by rw [hy]; exact hbounds), utf8Run_last (by omega), hx, hy, hz, utf8LeadBits,
    if_neg (by omega), if_pos (by omega)]
  exact congrArg (Char.ofNat · :: utf8Run .start bs) (by omega)

theorem utf8Run_four {n : Nat} (h : 0x10000 ≤ n ∧ n < 0x110000) :
    utf8Run .start (UInt8.ofNat (n / 262144 % 8 + 240) :: UInt8.ofNat (n / 4096 % 64 + 128) ::
      UInt8.ofNat (n / 64 % 64 + 128) :: UInt8.ofNat (n % 64 + 128) :: bs) =
        Char.ofNat n :: utf8Run .start bs := by
  have hx : (UInt8.ofNat (n / 262144 % 8 + 240)).toNat = n / 262144 + 240 := by
    rw [UInt8.toNat_ofNat_of_lt' (by change _ < 256; omega)]
    omega
  have hy : (UInt8.ofNat (n / 4096 % 64 + 128)).toNat = n / 4096 % 64 + 128 :=
    UInt8.toNat_ofNat_of_lt' (by change _ < 256; omega)
  have hy' : (UInt8.ofNat (n / 64 % 64 + 128)).toNat = n / 64 % 64 + 128 :=
    UInt8.toNat_ofNat_of_lt' (by change _ < 256; omega)
  have hz : (UInt8.ofNat (n % 64 + 128)).toNat = n % 64 + 128 :=
    UInt8.toNat_ofNat_of_lt' (by change _ < 256; omega)
  have hbounds : (if n / 262144 = 0 then 0x90 else 0x80) ≤ n / 4096 % 64 + 128 ∧
      n / 4096 % 64 + 128 ≤ (if n / 262144 = 4 then 0x8F else 0xBF) := by
    constructor <;> split <;> omega
  rw [utf8Run_lead (by omega) (by rw [hx]; exact utf8Lead_four (by omega)),
    utf8Run_more (by rw [hy]; exact hbounds), utf8Run_more (by omega), utf8Run_last (by omega), hx,
    hy, hy', hz, utf8LeadBits, if_neg (by omega), if_neg (by omega)]
  exact congrArg (Char.ofNat · :: utf8Run .start bs) (by omega)

/-- The bytes of a code point. -/
def encodedChar (n : Nat) : List UInt8 :=
  if n ≤ 127 then [UInt8.ofNat n]
  else if n ≤ 2047 then [UInt8.ofNat (n / 64 % 32 + 192), UInt8.ofNat (n % 64 + 128)]
  else if n ≤ 65535 then
    [UInt8.ofNat (n / 4096 % 16 + 224), UInt8.ofNat (n / 64 % 64 + 128), UInt8.ofNat (n % 64 + 128)]
  else
    [UInt8.ofNat (n / 262144 % 8 + 240), UInt8.ofNat (n / 4096 % 64 + 128),
      UInt8.ofNat (n / 64 % 64 + 128), UInt8.ofNat (n % 64 + 128)]

/-- The bytes of a character are read as this character. -/
theorem utf8Run_encodeChar (c : Char) (bs : List UInt8) :
    utf8Run .start (String.utf8EncodeChar c ++ bs) = c :: utf8Run .start bs := by
  have hvalid : c.toNat < 0xD800 ∨ 0xDFFF < c.toNat ∧ c.toNat < 0x110000 := c.valid
  have hc : c :: utf8Run .start bs = Char.ofNat c.toNat :: utf8Run .start bs := by
    rw [Char.ofNat_toNat]
  have hbytes : String.utf8EncodeChar c = encodedChar c.toNat := rfl
  rw [hc, hbytes, encodedChar]
  generalize c.toNat = n at hvalid
  split
  · have hx : (UInt8.ofNat n).toNat = n := UInt8.toNat_ofNat_of_lt' (by change _ < 256; omega)
    rw [List.singleton_append, utf8Run_ascii (by omega), hx]
  · split
    · exact utf8Run_two (by omega)
    · split
      · exact utf8Run_three (by omega) (by omega)
      · exact utf8Run_four (by omega)

/-! ## Texts -/

theorem utf8Run_encode : ∀ s : List Char, utf8Run .start (s.flatMap String.utf8EncodeChar) = s
  | [] => rfl
  | c :: s => by
    rw [List.flatMap_cons, utf8Run_encodeChar, utf8Run_encode s]

theorem toList_loop_eq (bs : ByteArray) (i : Nat) (r : List UInt8) :
    ByteArray.toList.loop bs i r = r.reverse ++ bs.data.toList.drop i := by
  fun_induction ByteArray.toList.loop bs i r with
  | case1 i r h ih =>
    have hi : i < bs.data.toList.length := by simpa using h
    rw [ih, List.drop_eq_getElem_cons hi]
    simp [ByteArray.get!, h]
  | case2 i r h =>
    rw [List.drop_eq_nil_of_le (by simpa using Nat.le_of_not_lt h)]
    simp

theorem toList_toUTF8 (s : String) :
    s.toUTF8.toList = s.toList.flatMap String.utf8EncodeChar := by
  have hs : s.toUTF8 = (s.toList.flatMap String.utf8EncodeChar).toByteArray := by
    have hlist := String.toByteArray_ofList (l := s.toList)
    rwa [String.ofList_toList] at hlist
  rw [hs, ByteArray.toList, toList_loop_eq]
  simp

/-- The bytes of a text are read as this text. -/
theorem decodeLossy_toUTF8 (s : String) : decodeLossy s.toUTF8.toList = s := by
  rw [toList_toUTF8, decodeLossy, utf8Run_encode, String.ofList_toList]

theorem toUTF8_inj {s t : String} (h : s.toUTF8.toList = t.toUTF8.toList) : s = t := by
  rw [← decodeLossy_toUTF8 s, h, decodeLossy_toUTF8]

end QueryKit.Text
