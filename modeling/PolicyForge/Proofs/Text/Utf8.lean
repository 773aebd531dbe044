import PolicyForge.Proofs.Text.ByteOrder
import PolicyForge.Text.Utf8

namespace PolicyForge.Text

/-- Reading goes on in the state that a byte leaves. -/
theorem readBytes_cons {unfinished next : Option Unfinished} {byte : Nat} {characters : List Char}
    (hbyte : readByte unfinished byte = (characters, next)) (bytes : List Nat) :
    readBytes unfinished (byte :: bytes) = characters ++ readBytes next bytes := by
  cases unfinished <;> simp [readBytes, hbyte]

section

variable {code least greatest byte : Nat} (hleast : least ≤ byte) (hgreatest : byte ≤ greatest)

include hleast hgreatest

/-- The last byte within its bounds finishes a character. -/
theorem readByte_last : readByte (some ⟨code, least, greatest, 0⟩) byte =
    ([Char.ofNat (64 * code + byte % 64)], none) :=
  if_pos ⟨hleast, hgreatest⟩

/-- A byte within its bounds that is not the last one adds six digits to what has been read. -/
theorem readByte_more (behind : Nat) :
    readByte (some ⟨code, least, greatest, behind + 1⟩) byte =
      ([], some ⟨64 * code + byte % 64, 0x80, 0xBF, behind⟩) :=
  if_pos ⟨hleast, hgreatest⟩

end

section

variable {code : Nat}

theorem readByte_none_of_two (hleast : 2 ≤ code) (hgreatest : code < 32) :
    readByte none (code + 192) = ([], some ⟨code, 0x80, 0xBF, 0⟩) := by
  rw [readByte, readFirst, if_neg (by omega), Unfinished.ofFirst?, if_neg (by omega),
    if_pos (by omega), Nat.add_sub_cancel]

/-- A byte that opens three: the first continuation is bounded below against overlong forms and
above against surrogates. -/
theorem readByte_none_of_three (hgreatest : code < 16) :
    readByte none (code + 224) = ([], some ⟨code, if code = 0 then 0xA0 else 0x80,
      if code = 13 then 0x9F else 0xBF, 1⟩) := by
  rw [readByte, readFirst, if_neg (by omega), Unfinished.ofFirst?, if_neg (by omega),
    if_neg (by omega), if_pos (by omega), Nat.add_sub_cancel]
  simp only [Nat.reduceEqDiff, Nat.add_eq_right]

/-- A byte that opens four: bounded below against overlong forms and above by the last code point.
-/
theorem readByte_none_of_four (hgreatest : code < 5) :
    readByte none (code + 240) = ([], some ⟨code, if code = 0 then 0x90 else 0x80,
      if code = 4 then 0x8F else 0xBF, 2⟩) := by
  rw [readByte, readFirst, if_neg (by omega), Unfinished.ofFirst?, if_neg (by omega),
    if_neg (by omega), if_neg (by omega), if_pos (by omega), Nat.add_sub_cancel]
  simp only [Nat.reduceEqDiff, Nat.add_eq_right]

end

/-- The bytes of a character are read as this character, whatever follows them. The bounds of the
second byte hold since a character has no shorter form and is no half of a surrogate pair. -/
theorem readBytes_charBytes_append (c : Char) (more : List Nat) :
    readBytes none (charBytes c ++ more) = c :: readBytes none more := by
  have hvalid : c.toNat < 55296 ∨ 57343 < c.toNat ∧ c.toNat < 1114112 := c.valid
  have hself : ∀ code, code = c.toNat → Char.ofNat code = c := by
    rintro code rfl
    exact Char.ofNat_toNat c
  rw [charBytes_eq]
  split_ifs with hone htwo hthree
  · have hfirst : readByte none c.toNat = ([Char.ofNat c.toNat], none) := if_pos (by omega)
    rw [List.singleton_append, readBytes_cons hfirst, hself _ rfl, List.singleton_append]
  · rw [List.cons_append, readBytes_cons (readByte_none_of_two (by omega) (by omega)),
      List.cons_append, readBytes_cons (readByte_last (by omega) (by omega)), hself _ (by omega)]
    rfl
  · rw [List.cons_append, readBytes_cons (readByte_none_of_three (by omega)),
      List.cons_append, readBytes_cons (readByte_more (by split <;> omega) (by split <;> omega) 0),
      List.cons_append, readBytes_cons (readByte_last (by omega) (by omega)), hself _ (by omega)]
    rfl
  · rw [List.cons_append, readBytes_cons (readByte_none_of_four (by omega)),
      List.cons_append, readBytes_cons (readByte_more (by split <;> omega) (by split <;> omega) 1),
      List.cons_append, readBytes_cons (readByte_more (by omega) (by omega) 0),
      List.cons_append, readBytes_cons (readByte_last (by omega) (by omega)), hself _ (by omega)]
    rfl

/-- Reading undoes writing. -/
theorem readBytes_flatMap_charBytes (cs : List Char) :
    readBytes none (cs.flatMap charBytes) = cs := by
  induction cs with
  | nil => rfl
  | cons c cs ih => rw [List.flatMap_cons, readBytes_charBytes_append, ih]

/-- A text is read from its bytes without a replacement. -/
theorem lossy_utf8 (text : String) : lossy (utf8 text) = text := by
  have hbytes : (utf8 text).map (·.toNat) = text.toList.flatMap charBytes := bytes_eq_flatMap text
  rw [lossy, hbytes, readBytes_flatMap_charBytes, String.ofList_toList]

/-- Texts have different bytes. -/
theorem utf8_injective : Function.Injective utf8 :=
  Function.LeftInverse.injective lossy_utf8

/-- What a byte that begins a character waits for is no single byte. -/
theorem least_of_ofFirst? {byte : Nat} {unfinished : Unfinished}
    (hfirst : Unfinished.ofFirst? byte = some unfinished) : 0x80 ≤ unfinished.least := by
  unfold Unfinished.ofFirst? at hfirst
  split_ifs at hfirst <;> obtain rfl := Option.some.inj hfirst <;>
    exact Nat.le_of_ble_eq_true rfl

theorem least_of_readFirst {byte : Nat} :
    ∀ unfinished ∈ (readFirst byte).2, 0x80 ≤ unfinished.least := by
  unfold readFirst
  split
  · simp
  · split
    · rename_i hfirst
      simpa using least_of_ofFirst? hfirst
    · simp

/-- No byte leaves a character waiting for a single byte. -/
theorem least_of_readByte (unfinished : Option Unfinished) (byte : Nat) :
    ∀ next ∈ (readByte unfinished byte).2, 0x80 ≤ next.least := by
  cases unfinished with
  | none => exact least_of_readFirst
  | some unfinished =>
    rw [readByte]
    split
    · unfold Unfinished.extend
      split <;> simp
    · exact least_of_readFirst

/-- A single byte ends what is in front of it, as the end of the bytes does. -/
theorem readBytes_append_single {byte : Nat} (hsingle : byte < 0x80) {unfinished : Option Unfinished}
    (hleast : ∀ own ∈ unfinished, 0x80 ≤ own.least) (front behind : List Nat) :
    readBytes unfinished (front ++ byte :: behind) =
      readBytes unfinished front ++ Char.ofNat byte :: readBytes none behind := by
  induction front generalizing unfinished with
  | nil =>
    have hfirst : readFirst byte = ([Char.ofNat byte], none) := if_pos hsingle
    cases unfinished with
    | none =>
      have hread : readByte none byte = ([Char.ofNat byte], none) := hfirst
      exact readBytes_cons hread behind
    | some unfinished =>
      have hbound : ¬ (unfinished.least ≤ byte ∧ byte ≤ unfinished.greatest) := by
        have hown := hleast unfinished rfl
        omega
      have hread : readByte (some unfinished) byte = ([replacement, Char.ofNat byte], none) := by
        rw [readByte, if_neg hbound, hfirst]
      exact readBytes_cons hread behind
  | cons own front ih =>
    have hnext := least_of_readByte unfinished own
    generalize hread : readByte unfinished own = read at hnext
    rw [List.cons_append, readBytes_cons hread, readBytes_cons hread, ih hnext, List.append_assoc]

/-- A character of one byte cuts what bytes are shown as, wherever it stands. -/
theorem lossy_append_single {byte : UInt8} (hsingle : byte.toNat < 0x80)
    (front behind : List UInt8) : lossy (front ++ byte :: behind) =
      lossy front ++ String.singleton (Char.ofNat byte.toNat) ++ lossy behind := by
  apply String.toList_injective
  simp only [lossy, List.map_append, List.map_cons, String.toList_append, String.toList_ofList,
    String.toList_singleton]
  rw [readBytes_append_single hsingle (by simp), List.append_assoc, List.singleton_append]

@[simp]
theorem utf8_append (text other : String) : utf8 (text ++ other) = utf8 text ++ utf8 other := by
  simp [utf8, String.toUTF8_eq_toByteArray, String.toByteArray_append]

/-- A byte below 128 is written for its own character only. -/
theorem mem_charBytes_iff {byte : Nat} (hbyte : byte < 128) {c : Char} :
    byte ∈ charBytes c ↔ byte = c.toNat := by
  rw [charBytes_eq]
  split_ifs <;> simp only [List.mem_cons, List.not_mem_nil, or_false] <;> omega

theorem ofNat_mem_of_mem_utf8 {byte : UInt8} (hbyte : byte.toNat < 128) {text : String}
    (hmem : byte ∈ utf8 text) : Char.ofNat byte.toNat ∈ text.toList := by
  have hbytes : byte.toNat ∈ text.toList.flatMap charBytes := by
    rw [← bytes_eq_flatMap]
    exact List.mem_map_of_mem hmem
  obtain ⟨c, hc, hown⟩ := List.mem_flatMap.mp hbytes
  rw [(mem_charBytes_iff hbyte).mp hown, Char.ofNat_toNat]
  exact hc

end PolicyForge.Text
