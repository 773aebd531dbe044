import Mathlib.Data.List.Lex

namespace PolicyForge.Text

/-- The bytes of a character, as numbers. -/
def charBytes (c : Char) : List Nat :=
  (String.utf8EncodeChar c).map UInt8.toNat

/-- The bytes of a text, as numbers. -/
def bytes (text : String) : List Nat :=
  text.toUTF8.data.toList.map UInt8.toNat

theorem bytes_eq_flatMap (text : String) : bytes text = text.toList.flatMap charBytes := by
  have htext : text.toUTF8 = text.toList.utf8Encode := by
    rw [String.toUTF8_eq_toByteArray, ← String.toByteArray_ofList, String.ofList_toList]
  rw [bytes, htext, List.utf8Encode, List.data_toByteArray, List.map_flatMap]
  rfl

theorem toNat_le (c : Char) : c.toNat ≤ 1114111 := by
  have hvalid := c.valid
  grind [Char.toNat]

/-- A character takes one byte to four: what its number is in front of the digits to base 64, raised
by where the numbers of bytes begin, and these digits. -/
theorem charBytes_eq (c : Char) : charBytes c =
    if c.toNat ≤ 127 then [c.toNat]
    else if c.toNat ≤ 2047 then [c.toNat / 64 + 192, c.toNat % 64 + 128]
    else if c.toNat ≤ 65535 then
      [c.toNat / 4096 + 224, c.toNat / 64 % 64 + 128, c.toNat % 64 + 128]
    else
      [c.toNat / 262144 + 240, c.toNat / 4096 % 64 + 128, c.toNat / 64 % 64 + 128,
        c.toNat % 64 + 128] := by
  have hbound := toNat_le c
  have hbyte : ∀ n < 256, (UInt8.ofNat n).toNat = n := fun n hn => UInt8.toNat_ofNat_of_lt' hn
  have hcode : c.val.toNat = c.toNat := rfl
  simp only [charBytes, String.utf8EncodeChar, hcode]
  split_ifs
  · rw [List.map_singleton, hbyte _ (by omega)]
  · have hfirst : c.toNat / 64 % 32 = c.toNat / 64 := Nat.mod_eq_of_lt (by omega)
    simp only [List.map_cons, List.map_nil, hfirst]
    rw [hbyte _ (by omega), hbyte _ (by omega)]
  · have hfirst : c.toNat / 4096 % 16 = c.toNat / 4096 := Nat.mod_eq_of_lt (by omega)
    simp only [List.map_cons, List.map_nil, hfirst]
    rw [hbyte _ (by omega), hbyte _ (by omega), hbyte _ (by omega)]
  · have hfirst : c.toNat / 262144 % 8 = c.toNat / 262144 := Nat.mod_eq_of_lt (by omega)
    simp only [List.map_cons, List.map_nil, hfirst]
    rw [hbyte _ (by omega), hbyte _ (by omega), hbyte _ (by omega), hbyte _ (by omega)]

/-- Characters in order are written in bytes in order, whatever follows them. -/
theorem lex_charBytes_append {c d : Char} (hlt : c < d) (more others : List Nat) :
    List.Lex (· < ·) (charBytes c ++ more) (charBytes d ++ others) := by
  have hless : c.toNat < d.toNat := UInt32.lt_iff_toNat_lt.mp (Char.lt_def.mp hlt)
  have hbound := toNat_le d
  rw [charBytes_eq, charBytes_eq]
  split_ifs <;> simp only [List.cons_append, List.cons_lex_cons_iff] <;> omega

/-- Texts that compare by their characters compare the same way by their bytes. -/
theorem lex_flatMap_charBytes {cs ds : List Char} (hlex : List.Lex (· < ·) cs ds) :
    List.Lex (· < ·) (cs.flatMap charBytes) (ds.flatMap charBytes) := by
  induction hlex with
  | @nil d ds =>
    obtain ⟨byte, more, hbytes⟩ : ∃ byte more, charBytes d = byte :: more := by
      apply List.exists_cons_of_ne_nil
      simp [charBytes]
    rw [List.flatMap_cons, hbytes]
    exact .nil
  | cons _ ih => exact .append_left _ ih _
  | rel hlt => exact lex_charBytes_append hlt _ _

theorem bytes_lex_of_lt {a b : String} (hlt : a < b) : List.Lex (· < ·) (bytes a) (bytes b) := by
  rw [bytes_eq_flatMap, bytes_eq_flatMap]
  exact lex_flatMap_charBytes (String.lt_iff.mp hlt)

end PolicyForge.Text
