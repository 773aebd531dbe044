import Mathlib.Data.List.Basic
import PolicyForge.Proofs.Text.Cut
import PolicyForge.Source.Literal

namespace PolicyForge.Source.Literal

/-- The last hexadecimal digit is added to sixteen times what stands before it. -/
theorem hexValue?_concat (digits : List Char) {digit : Nat} (hdigit : digit < 16) :
    hexValue? (digits ++ [digit.digitChar]) = (hexValue? digits).map (16 * · + digit) := by
  have hvalue : ∀ digit < 16, digit.digitChar.isDigit = true ∧
        digit.digitChar.toNat - '0'.toNat = digit ∨
      ¬ digit.digitChar.isDigit = true ∧ ('a' ≤ digit.digitChar && digit.digitChar ≤ 'f') = true ∧
        digit.digitChar.toNat - 'a'.toNat + 10 = digit := by
    decide
  cases hread : hexValue? digits with
  | none =>
    unfold hexValue? at hread ⊢
    rw [List.foldlM_append, hread]
    rfl
  | some value =>
    unfold hexValue? at hread ⊢
    rw [List.foldlM_append, hread]
    simp only [List.foldlM_cons, List.foldlM_nil, Option.bind_eq_bind, Option.bind_some,
      Option.map_some]
    obtain ⟨hdecimal, heq⟩ | ⟨hdecimal, hletter, heq⟩ := hvalue digit hdigit
    · rw [if_pos hdecimal, heq]
      rfl
    · rw [if_neg hdecimal, if_pos hletter, heq]
      rfl

/-- A numeral in base sixteen is read back as its number. -/
theorem hexValue?_hexadecimal (n : Nat) : hexValue? (Text.hexadecimal n) = some n := by
  induction n using Nat.strongRecOn with
  | ind n ih =>
    rw [Text.hexadecimal, Nat.toDigits_eq_if (by decide)]
    split
    · rename_i hsmall
      have hone := hexValue?_concat [] hsmall
      simpa [hexValue?] using hone
    · have hrest := ih (n / 16) (by omega)
      rw [Text.hexadecimal] at hrest
      rw [hexValue?_concat _ (Nat.mod_lt n (by decide)), hrest, Option.map_some, Nat.div_add_mod]

/-- A code point is written in letters and digits alone, so the closing brace behind it is the
first. -/
theorem isAlphanum_of_mem_hexadecimal {n : Nat} {c : Char} (hc : c ∈ Text.hexadecimal n) :
    c.isAlphanum = true := by
  have hdigits : ∀ digit < 16, digit.digitChar.isAlphanum = true := by decide
  induction n using Nat.strongRecOn with
  | ind n ih =>
    rw [Text.hexadecimal, Nat.toDigits_eq_if (by decide)] at hc
    split at hc
    · rename_i hsmall
      rw [List.mem_singleton.mp hc]
      exact hdigits n hsmall
    · obtain hrest | hlast := List.mem_append.mp hc
      · exact ih (n / 16) (by omega) hrest
      · rw [List.mem_singleton.mp hlast]
        exact hdigits _ (Nat.mod_lt n (by decide))

/-- What stands for a character inside a literal: the character itself unless it would end the
literal, start an escape or end the line, an escape of one letter, or its code point. -/
inductive Spells (c : Char) : List Char → Prop where
  | plain (hquote : c ≠ '"') (hescape : c ≠ '\\') (hbreak : c ≠ '\n') : Spells c [c]
  | short {letter : Char} (hletter : shortEscape? letter = some c) : Spells c ['\\', letter]
  | point : Spells c ('\\' :: 'u' :: '{' :: Text.hexadecimal c.toNat ++ ['}'])

theorem spells_escape (c : Char) : Spells c (escape c) := by
  unfold escape
  split_ifs with hnull htab hreturn hbreak hslash hquote hplain
  · exact .short (by rw [beq_iff_eq.mp hnull]; rfl)
  · exact .short (by rw [beq_iff_eq.mp htab]; rfl)
  · exact .short (by rw [beq_iff_eq.mp hreturn]; rfl)
  · exact .short (by rw [beq_iff_eq.mp hbreak]; rfl)
  · exact .short (by rw [beq_iff_eq.mp hslash]; rfl)
  · exact .short (by rw [beq_iff_eq.mp hquote]; rfl)
  · exact .plain (by simpa using hquote) (by simpa using hslash) (by simpa using hbreak)
  · exact .point

/-- A spelling never breaks the line, that of the line feed included. -/
theorem newline_not_mem_of_spells {c : Char} {spelling : List Char} (hspells : Spells c spelling) :
    '\n' ∉ spelling := by
  cases hspells with
  | plain _ _ hbreak => simpa using hbreak.symm
  | @short letter hletter =>
    have hne : letter ≠ '\n' := by
      rintro rfl
      cases hletter
    simpa using hne.symm
  | point =>
    have hdigits : '\n' ∉ Text.hexadecimal c.toNat := fun hmem =>
      absurd (isAlphanum_of_mem_hexadecimal hmem) (by decide)
    simp [hdigits]

/-- A spelling is read back as its character, whatever follows. -/
theorem readBody?_of_spells {c : Char} {spelling : List Char} (hspells : Spells c spelling)
    (rest : List Char) :
    readBody? (spelling ++ rest) = (readBody? rest).map fun (text, rest) => (c :: text, rest) := by
  cases hspells with
  | plain hquote hescape _ =>
    rw [List.singleton_append, readBody?]
    · cases readBody? rest <;> rfl
    · exact hquote
    · exact fun _ heq => absurd heq hescape
    · exact fun _ _ heq => absurd heq hescape
  | @short letter hletter =>
    rw [List.cons_append, List.singleton_append, readBody?, hletter]
    · cases readBody? rest <;> rfl
    · rintro _ rfl
      cases hletter
  | point =>
    have hclosing : '}' ∉ Text.hexadecimal c.toNat := fun hmem =>
      absurd (isAlphanum_of_mem_hexadecimal hmem) (by decide)
    have hcut : Text.cutAt '}' (Text.hexadecimal c.toNat ++ '}' :: rest) =
        some (Text.hexadecimal c.toNat, rest) := Text.cutAt_append hclosing rest
    simp only [List.cons_append, List.append_assoc, List.nil_append]
    rw [readBody?]
    split
    · rename_i hnone
      cases hnone.symm.trans hcut
    · rename_i digits after hsome
      obtain ⟨rfl, rfl⟩ := Prod.mk.inj (Option.some.inj (hsome.symm.trans hcut))
      simp only [hexValue?_hexadecimal, Option.bind_eq_bind, Option.bind_some, Char.ofNat_toNat]
      cases readBody? after <;> rfl

theorem toList_write (text : String) :
    (write text).toList = '"' :: (text.toList.flatMap escape ++ ['"']) := by
  rw [write, String.toList_ofList, List.cons_append]

theorem newline_not_mem_write (text : String) : '\n' ∉ (write text).toList := by
  have hinner : '\n' ∉ text.toList.flatMap escape := by
    rw [List.mem_flatMap]
    rintro ⟨c, -, hmem⟩
    exact newline_not_mem_of_spells (spells_escape c) hmem
  rw [toList_write]
  simp [hinner]

/-- Reading finds the text of a literal and what follows it. -/
theorem read?_write (text : String) (rest : List Char) :
    read? ((write text).toList ++ rest) = some (text.toList, rest) := by
  have hbody : ∀ cs : List Char,
      readBody? (cs.flatMap escape ++ '"' :: rest) = some (cs, rest) := by
    intro cs
    induction cs with
    | nil => rw [List.flatMap_nil, List.nil_append, readBody?]
    | cons c cs ih =>
      rw [List.flatMap_cons, List.append_assoc, readBody?_of_spells (spells_escape c), ih]
      rfl
  rw [toList_write, List.cons_append, List.append_assoc, List.singleton_append, read?, hbody]

/-- Literals with anything behind them are equal only when both parts are. -/
theorem write_append_inj {text other : String} {rest rest' : List Char}
    (heq : (write text).toList ++ rest = (write other).toList ++ rest') :
    text = other ∧ rest = rest' := by
  have hread := congrArg read? heq
  rw [read?_write, read?_write] at hread
  obtain ⟨htext, hrest⟩ := Prod.mk.inj (Option.some.inj hread)
  exact ⟨String.toList_injective htext, hrest⟩

/-- What a list of literals has behind its opening, and what follows the list. -/
def items (rest : List Char) : List String → List Char
  | [] => ']' :: rest
  | [text] => (write text).toList ++ ']' :: rest
  | text :: other :: others => (write text).toList ++ ',' :: ' ' :: items rest (other :: others)

theorem toList_slice_append (texts : List String) (rest : List Char) :
    (slice texts).toList ++ rest = '&' :: '[' :: items rest texts := by
  have hitems : ", ".toList.intercalate ((texts.map write).map String.toList) ++ ']' :: rest =
      items rest texts := by
    induction texts with
    | nil => rfl
    | cons text texts ih =>
      cases texts with
      | nil => simp [items]
      | cons other others =>
        rw [items, ← ih]
        simp
  rw [slice, String.toList_append, String.toList_append, String.toList_intercalate, ← hitems]
  simp

theorem newline_not_mem_slice (texts : List String) : '\n' ∉ (slice texts).toList := by
  have hitems : '\n' ∉ items [] texts := by
    fun_induction items [] texts with
    | case1 => decide
    | case2 text => simp [newline_not_mem_write]
    | case3 text other others ih => simp [newline_not_mem_write, ih]
  have hslice := toList_slice_append texts []
  rw [List.append_nil] at hslice
  simp [hslice, hitems]

/-- Slices with anything behind them are equal only when both parts are: the separator tells the
last item from the others. -/
theorem items_inj {texts others : List String} {rest rest' : List Char}
    (heq : items rest texts = items rest' others) : texts = others ∧ rest = rest' := by
  have hopens : ∀ text more behind, (write text).toList ++ more ≠ ']' :: behind := by
    intro text more behind
    simp [toList_write]
  induction texts generalizing others with
  | nil =>
    cases others with
    | nil => exact ⟨rfl, (List.cons.inj heq).2⟩
    | cons other others => cases others <;> exact absurd heq.symm (hopens _ _ _)
  | cons text texts ih =>
    cases others with
    | nil => cases texts <;> exact absurd heq (hopens _ _ _)
    | cons other others =>
      cases texts with
      | nil =>
        cases others with
        | nil =>
          obtain ⟨rfl, hrest⟩ := write_append_inj heq
          exact ⟨rfl, (List.cons.inj hrest).2⟩
        | cons next others =>
          obtain ⟨-, hrest⟩ := write_append_inj heq
          cases (List.cons.inj hrest).1
      | cons next texts =>
        cases others with
        | nil =>
          obtain ⟨-, hrest⟩ := write_append_inj heq
          cases (List.cons.inj hrest).1
        | cons next' others =>
          obtain ⟨rfl, hrest⟩ := write_append_inj heq
          obtain ⟨hsame, hbehind⟩ := ih (List.cons.inj (List.cons.inj hrest).2).2
          exact ⟨by rw [hsame], hbehind⟩

theorem slice_append_inj {texts others : List String} {rest rest' : List Char}
    (heq : (slice texts).toList ++ rest = (slice others).toList ++ rest') :
    texts = others ∧ rest = rest' := by
  rw [toList_slice_append, toList_slice_append] at heq
  exact items_inj (List.cons.inj (List.cons.inj heq).2).2

end PolicyForge.Source.Literal
