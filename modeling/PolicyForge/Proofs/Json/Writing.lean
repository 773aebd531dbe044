import Mathlib.Tactic.SplitIfs
import PolicyForge.Json.Writer
import PolicyForge.Proofs.Json.Grammar

namespace PolicyForge.Json

open Grammar (Blank Document Keyed Spelled SpelledChar Writes blank_nil)

mutual

/-- Whether a value is made of strings, words, arrays and objects alone. -/
def Textual : Json → Prop
  | number _ | undecodable => False
  | array items => TextualItems items
  | object members => TextualMembers members
  | null | bool _ | string _ => True

/-- Whether all items are so. -/
def TextualItems : List Json → Prop
  | [] => True
  | item :: items => Textual item ∧ TextualItems items

/-- Whether the values of all members are so. -/
def TextualMembers : List (String × Json) → Prop
  | [] => True
  | (_, value) :: members => Textual value ∧ TextualMembers members

end

theorem textualItems_of_forall {items : List Json} (h : ∀ item ∈ items, item.Textual) :
    TextualItems items := by
  induction items with
  | nil => trivial
  | cons item items ih =>
    exact ⟨h item List.mem_cons_self, ih fun next hnext => h next (List.mem_cons_of_mem item hnext)⟩

theorem textualMembers_of_forall {members : List (String × Json)}
    (h : ∀ member ∈ members, member.2.Textual) : TextualMembers members := by
  induction members with
  | nil => trivial
  | cons member members ih =>
    exact ⟨h member List.mem_cons_self,
      ih fun next hnext => h next (List.mem_cons_of_mem member hnext)⟩

/-- Two digits spell every control character. -/
theorem hexadecimal_of_lt {n : Nat} (hn : n < 0x20) :
    (if n < 0x10 then ['0'] else []) ++ Text.hexadecimal n =
        [(n / 16).digitChar, (n % 16).digitChar] ∧
      ((n / 16).digitChar, n / 16) ∈ Grammar.hexDigits ∧
      ((n % 16).digitChar, n % 16) ∈ Grammar.hexDigits := by
  have hall : ∀ n < 0x20, (if n < 0x10 then ['0'] else []) ++ Text.hexadecimal n =
        [(n / 16).digitChar, (n % 16).digitChar] ∧
      ((n / 16).digitChar, n / 16) ∈ Grammar.hexDigits ∧
      ((n % 16).digitChar, n % 16) ∈ Grammar.hexDigits := by decide
  exact hall n hn

/-- A control character is written by its code point, of which the first two digits are zero. -/
theorem spelledChar_control {c : Char} (hcontrol : c.toNat < 0x20) :
    SpelledChar ('\\' :: 'u' :: '0' :: '0' :: (if c.toNat < 0x10 then ['0'] else []) ++
      Text.hexadecimal c.toNat) c := by
  obtain ⟨hspelling, hhigh, hlow⟩ := hexadecimal_of_lt hcontrol
  have hzero : ('0', 0) ∈ Grammar.hexDigits := by decide
  simp only [List.cons_append, hspelling]
  exact .unit hzero hzero hhigh hlow (by omega)

theorem spelledChar_escape (c : Char) : SpelledChar (escape c) c := by
  have hshort : ∀ {letter point : Char}, (letter, point) ∈ Grammar.shortEscapes →
      (c == point) = true → SpelledChar ['\\', letter] c := by
    intro letter point hmem heq
    rw [beq_iff_eq.mp heq]
    exact .short hmem
  unfold escape
  split_ifs with hquote hbackslash hnewline hreturn htab hbackspace hfeed hcontrol hdigit
  · exact hshort (by decide) hquote
  · exact hshort (by decide) hbackslash
  · exact hshort (by decide) hnewline
  · exact hshort (by decide) hreturn
  · exact hshort (by decide) htab
  · exact hshort (by decide) hbackspace
  · exact hshort (by decide) hfeed
  · simpa [hdigit] using spelledChar_control hcontrol
  · simpa [hdigit] using spelledChar_control hcontrol
  · exact .plain (by simpa using hquote) (by simpa using hbackslash) (by omega)

theorem spelled_flatMap_escape (text : List Char) : Spelled (text.flatMap escape) text := by
  induction text with
  | nil => exact .nil
  | cons c text ih => exact .cons (spelledChar_escape c) ih

theorem writes_quote (text : String) : Writes (quote text) (.value (.string text)) :=
  .string (spelled_flatMap_escape text.toList)

/-- A quoted name and its colon, with blanks in front, are the key of a member. -/
theorem keyed_quote {gap : List Char} (hgap : Blank gap) (key : String) :
    Keyed (gap ++ quote key ++ [':']) key := by
  have hkeyed := Keyed.intro hgap (spelled_flatMap_escape key.toList) blank_nil
  simpa [quote] using hkeyed

mutual

/-- The compact text of a value is one that the grammar reads as this value. -/
theorem writes_compactChars : (value : Json) → value.Textual →
    Writes (compactChars value) (.value value)
  | .null, _ => .null
  | .bool true, _ => .true
  | .bool false, _ => .false
  | .string text, _ => writes_quote text
  | .array [], _ => .emptyArray blank_nil
  | .array (item :: items), h => .array (writes_compactItems (item :: items) h (by simp))
  | .object [], _ => .emptyObject blank_nil
  | .object (member :: members), h =>
    .object (writes_compactMembers (member :: members) h (by simp))

theorem writes_compactItems : (items : List Json) → TextualItems items → items ≠ [] →
    Writes (compactItems items) (.items items)
  | [], _, hne => absurd rfl hne
  | [item], h, _ => by
    have hitem := writes_compactChars item h.1
    simpa [compactItems] using Writes.lastItem blank_nil hitem blank_nil
  | item :: next :: items, h, _ => by
    have hitem := writes_compactChars item h.1
    have hitems := writes_compactItems (next :: items) h.2 (by simp)
    simpa [compactItems] using Writes.item blank_nil hitem blank_nil hitems

theorem writes_compactMembers : (members : List (String × Json)) → TextualMembers members →
    members ≠ [] → Writes (compactMembers members) (.members members)
  | [], _, hne => absurd rfl hne
  | [(key, value)], h, _ => by
    have hvalue := writes_compactChars value h.1
    have hkey := keyed_quote blank_nil key
    simpa [compactMembers] using Writes.lastMember hkey blank_nil hvalue blank_nil
  | (key, value) :: next :: members, h, _ => by
    have hvalue := writes_compactChars value h.1
    have hkey := keyed_quote blank_nil key
    have hmembers := writes_compactMembers (next :: members) h.2 (by simp)
    simpa [compactMembers] using Writes.member hkey blank_nil hvalue blank_nil hmembers

end

theorem blank_newLine (depth : Nat) : Blank (newLine depth) := by
  intro c hc
  simp only [newLine, List.mem_cons, List.mem_replicate] at hc
  obtain rfl | ⟨_, rfl⟩ := hc <;> simp

theorem blank_space : Blank [' '] := by
  simp [Blank]

mutual

/-- The pretty text of a value is read as the value too, at any depth of indentation. -/
theorem writes_prettyChars : (depth : Nat) → (value : Json) → value.Textual →
    Writes (prettyChars depth value) (.value value)
  | _, .null, _ => .null
  | _, .bool true, _ => .true
  | _, .bool false, _ => .false
  | _, .string text, _ => writes_quote text
  | _, .array [], _ => .emptyArray blank_nil
  | depth, .array (item :: items), h => by
    have hitems := writes_prettyItems (depth + 1) (item :: items) h (by simp) (blank_newLine depth)
    simpa [prettyChars] using Writes.array hitems
  | _, .object [], _ => .emptyObject blank_nil
  | depth, .object (member :: members), h => by
    have hmembers := writes_prettyMembers (depth + 1) (member :: members) h (by simp)
      (blank_newLine depth)
    simpa [prettyChars] using Writes.object hmembers

theorem writes_prettyItems : (depth : Nat) → (items : List Json) → TextualItems items →
    items ≠ [] → ∀ {gap : List Char}, Blank gap →
    Writes (prettyItems depth items ++ gap) (.items items)
  | _, [], _, hne, _, _ => absurd rfl hne
  | depth, [item], h, _, _, hgap => by
    have hitem := writes_prettyChars depth item h.1
    simpa [prettyItems] using Writes.lastItem (blank_newLine depth) hitem hgap
  | depth, item :: next :: items, h, _, _, hgap => by
    have hitem := writes_prettyChars depth item h.1
    have hitems := writes_prettyItems depth (next :: items) h.2 (by simp) hgap
    simpa [prettyItems] using Writes.item (blank_newLine depth) hitem blank_nil hitems

theorem writes_prettyMembers : (depth : Nat) → (members : List (String × Json)) →
    TextualMembers members → members ≠ [] → ∀ {gap : List Char}, Blank gap →
    Writes (prettyMembers depth members ++ gap) (.members members)
  | _, [], _, hne, _, _ => absurd rfl hne
  | depth, [(key, value)], h, _, _, hgap => by
    have hvalue := writes_prettyChars depth value h.1
    have hkey := keyed_quote (blank_newLine depth) key
    simpa [prettyMembers] using Writes.lastMember hkey blank_space hvalue hgap
  | depth, (key, value) :: next :: members, h, _, _, hgap => by
    have hvalue := writes_prettyChars depth value h.1
    have hkey := keyed_quote (blank_newLine depth) key
    have hmembers := writes_prettyMembers depth (next :: members) h.2 (by simp) hgap
    simpa [prettyMembers] using Writes.member hkey blank_space hvalue blank_nil hmembers

end

/-- The line that a value is written on is a document with this value. -/
theorem document_compact {value : Json} (htextual : value.Textual) :
    Document value.compact value := by
  have hdocument := Document.intro blank_nil (writes_compactChars value htextual) blank_nil
  simpa [compact] using hdocument

/-- The lines that a value is written on are a document with this value. -/
theorem document_pretty {value : Json} (htextual : value.Textual) :
    Document value.pretty value := by
  have hdocument := Document.intro blank_nil (writes_prettyChars 0 value htextual) blank_nil
  simpa [pretty] using hdocument

end PolicyForge.Json
