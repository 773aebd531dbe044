import PolicyForge.Json.Reader
import PolicyForge.Proofs.Json.Grammar

namespace PolicyForge.Json

open Grammar (Blank Document Keyed Meaning Spelled SpelledChar Writes)

theorem isSpace_of_blank {cs : List Char} (hblank : Blank cs) {c : Char} (hmem : c ∈ cs) :
    isSpace c = true := by
  have hc := hblank c hmem
  simp only [List.mem_cons, List.not_mem_nil, or_false] at hc
  obtain rfl | rfl | rfl | rfl := hc <;> rfl

theorem hexDigit?_of_mem {c : Char} {digit : Nat} (hmem : (c, digit) ∈ Grammar.hexDigits) :
    hexDigit? c = some digit := by
  have hall : ∀ entry ∈ Grammar.hexDigits, hexDigit? entry.1 = some entry.2 := by decide
  exact hall _ hmem

/-- Every short escape of the grammar stands for its character, and none is that of a code point. -/
theorem shortEscape?_of_mem {letter c : Char} (hmem : (letter, c) ∈ Grammar.shortEscapes) :
    shortEscape? letter = some c.toNat ∧ (letter == 'u') = false := by
  have hall : ∀ entry ∈ Grammar.shortEscapes,
      shortEscape? entry.1 = some entry.2.toNat ∧ (entry.1 == 'u') = false := by decide
  exact hall _ hmem

/-- Code points that belong to characters are decoded one by one, surrogates being none of them. -/
theorem decodePoints_map_toNat (reversed suffix : List Char) :
    decodePoints suffix (reversed.map Char.toNat) = some (reversed.reverse ++ suffix) := by
  induction reversed generalizing suffix with
  | nil => rfl
  | cons c reversed ih =>
    have hvalid : c.toNat < 0xD800 ∨ 0xDFFF < c.toNat ∧ c.toNat < 0x110000 := c.valid
    have hlow : ¬ (0xDC00 ≤ c.toNat ∧ c.toNat < 0xE000) := by omega
    have hhigh : ¬ (0xD800 ≤ c.toNat ∧ c.toNat < 0xDC00) := by omega
    rw [List.map_cons, decodePoints.eq_def]
    simp [hlow, hhigh, ih]

theorem textOfPoints_map_toNat (text : String) :
    textOfPoints ((text.toList.map Char.toNat).reverse ++ []) = some text := by
  rw [List.append_nil, textOfPoints, ← List.map_reverse, decodePoints_map_toNat]
  simp

namespace Machine

/-- A spelled character adds its code point to the string that is being read. -/
theorem foldlM_spelledChar {spelling : List Char} {c : Char} (hchar : SpelledChar spelling c)
    (stack : List Frame) (isKey : Bool) (points : List Nat) :
    spelling.foldlM step ⟨stack, .literal isKey points .outside⟩ =
      some ⟨stack, .literal isKey (c.toNat :: points) .outside⟩ := by
  cases hchar with
  | plain hquote hbackslash hcontrol =>
    have hcontrol' : ¬ c.toNat < 0x20 := by omega
    simp [step, stepLiteral, hquote, hbackslash, hcontrol']
  | short hescape =>
    obtain ⟨hpoint, hunit⟩ := shortEscape?_of_mem hescape
    simp [step, stepLiteral, hpoint, hunit]
  | unit h₁ h₂ h₃ h₄ hpoint =>
    simp [step, stepLiteral, hexDigit?_of_mem h₁, hexDigit?_of_mem h₂, hexDigit?_of_mem h₃,
      hexDigit?_of_mem h₄, ← hpoint, Nat.mul_comm]

/-- Inside a literal, the spelling of a text adds its code points to those read. -/
theorem foldlM_spelled {body text : List Char} (hbody : Spelled body text)
    (stack : List Frame) (isKey : Bool) (points : List Nat) :
    body.foldlM step ⟨stack, .literal isKey points .outside⟩ =
      some ⟨stack, .literal isKey ((text.map Char.toNat).reverse ++ points) .outside⟩ := by
  induction hbody generalizing points with
  | nil => rfl
  | cons hchar hrest ih =>
    rw [List.foldlM_append, foldlM_spelledChar hchar]
    simp [ih]

/-- The modes in which the machine is between two tokens of a document that goes on. -/
def Between : Mode → Prop
  | .value | .firstItem | .firstKey | .nextKey | .colon | .separator | .done _ => True
  | .literal .. | .word .. | .numeral .. => False

/-- Between two tokens, a character is a space or starts or ends something. -/
theorem step_of_between {mode : Mode} (hmode : Between mode) (stack : List Frame) (c : Char) :
    step ⟨stack, mode⟩ c = stepBetween ⟨stack, mode⟩ c := by
  cases mode <;> first | rfl | exact hmode.elim

/-- Blanks between two tokens are passed over. -/
theorem foldlM_blank {gap : List Char} (hgap : Blank gap) {mode : Mode} (hmode : Between mode)
    (stack : List Frame) : gap.foldlM step ⟨stack, mode⟩ = some ⟨stack, mode⟩ := by
  induction gap with
  | nil => rfl
  | cons c gap ih =>
    have hspace : isSpace c = true := isSpace_of_blank hgap List.mem_cons_self
    have hrest : Blank gap := fun d hd => hgap d (List.mem_cons_of_mem c hd)
    rw [List.foldlM_cons, step_of_between hmode, stepBetween, if_pos hspace]
    exact ih hrest

/-- The modes in which a value may start. -/
def AwaitsValue (mode : Mode) : Prop :=
  mode = .value ∨ mode = .firstItem

theorem AwaitsValue.between {mode : Mode} (hmode : AwaitsValue mode) : Between mode := by
  obtain rfl | rfl := hmode <;> trivial

/-- Where a value is awaited, a character that is no space and closes nothing begins one. -/
theorem step_begin {mode : Mode} (hmode : AwaitsValue mode) (stack : List Frame) {c : Char}
    (hspace : isSpace c = false) (hclose : c ≠ ']') :
    step ⟨stack, mode⟩ c = begin ⟨stack, mode⟩ c := by
  rw [step_of_between hmode.between]
  obtain rfl | rfl := hmode
  · simp [stepBetween, hspace]
  · simp [stepBetween, hspace, hclose]

/-- The modes in which the key of a member may start. -/
def AwaitsKey (mode : Mode) : Prop :=
  mode = .firstKey ∨ mode = .nextKey

theorem AwaitsKey.between {mode : Mode} (hmode : AwaitsKey mode) : Between mode := by
  obtain rfl | rfl := hmode <;> trivial

/-- A key with its colon makes the innermost object await the value of this key. -/
theorem foldlM_keyed {front : List Char} {key : String} (hkey : Keyed front key) {mode : Mode}
    (hmode : AwaitsKey mode) (stack : List Frame) (members : List (Option String × Json)) :
    front.foldlM step ⟨.object members none :: stack, mode⟩ =
      some ⟨.object members (some key) :: stack, .value⟩ := by
  cases hkey with
  | @intro before body between _ hbefore hbody hbetween =>
    have hquote : step ⟨.object members none :: stack, mode⟩ '"' =
        some ⟨.object members none :: stack, .literal true [] .outside⟩ := by
      obtain rfl | rfl := hmode <;> rfl
    have hend : step ⟨.object members none :: stack,
          .literal true ((key.toList.map Char.toNat).reverse ++ []) .outside⟩ '"' =
        some ⟨.object members (some key) :: stack, .colon⟩ := by
      simp only [step, stepLiteral, putString, textOfPoints_map_toNat]
      rfl
    have hcolon : step ⟨.object members (some key) :: stack, .colon⟩ ':' =
        some ⟨.object members (some key) :: stack, .value⟩ := rfl
    have hgap := foldlM_blank hbetween (show Between .colon from trivial)
    simp only [List.foldlM_append, List.foldlM_cons, List.foldlM_nil,
      foldlM_blank hbefore hmode.between, hquote, foldlM_spelled hbody, hend, hgap, hcolon,
      Option.bind_eq_bind, Option.bind_some]
    rfl

/-- A text of the grammar moves the machine on by what it stands for: a value is put where it was
awaited, and items and members are added to the container they stand in. -/
def Reads (cs : List Char) : Meaning → Prop
  | .value value => ∀ stack {mode}, AwaitsValue mode →
    cs.foldlM step ⟨stack, mode⟩ = some (put ⟨stack, mode⟩ value)
  | .items items => ∀ stack earlier {mode}, AwaitsValue mode →
    cs.foldlM step ⟨.array earlier :: stack, mode⟩ =
      some ⟨.array (items.reverse ++ earlier) :: stack, .separator⟩
  | .members members => ∀ stack earlier {mode}, AwaitsKey mode →
    cs.foldlM step ⟨.object earlier none :: stack, mode⟩ =
      some ⟨.object ((members.map fun member => (some member.1, member.2)).reverse ++ earlier) none ::
        stack, .separator⟩

/-- A run over a bracketed text: its opening, its body and its closing. -/
theorem foldlM_bracketed {start opened filled closed : Machine} {c d : Char} {body : List Char}
    (hopen : step start c = some opened) (hbody : body.foldlM step opened = some filled)
    (hclose : step filled d = some closed) :
    (c :: body ++ [d]).foldlM step start = some closed := by
  simp [hopen, hbody, hclose]

theorem foldlM_separated {start before next last : Machine} {front rest : List Char}
    (hfront : front.foldlM step start = some before) (hcomma : step before ',' = some next)
    (hrest : rest.foldlM step next = some last) :
    (front ++ ',' :: rest).foldlM step start = some last := by
  simp [hfront, hcomma, hrest]

theorem between_put (m : Machine) (value : Json) : Between (put m value).mode := by
  obtain ⟨stack, mode⟩ := m
  cases stack with
  | nil => trivial
  | cons frame stack => cases frame <;> trivial

/-- A value may stand between blanks. -/
theorem foldlM_element {before cs after : List Char} {value : Json} (hbefore : Blank before)
    (hvalue : Reads cs (.value value)) (hafter : Blank after) {mode : Mode}
    (hmode : AwaitsValue mode) (stack : List Frame) :
    (before ++ cs ++ after).foldlM step ⟨stack, mode⟩ = some (put ⟨stack, mode⟩ value) := by
  have hgap := foldlM_blank hafter (between_put ⟨stack, mode⟩ value) (put ⟨stack, mode⟩ value).stack
  simp [foldlM_blank hbefore hmode.between, hvalue stack hmode, hgap]

/-- A member with its blanks adds its name and value to the object that is open. -/
theorem foldlM_member {front before cs after : List Char} {key : String} {value : Json}
    (hkey : Keyed front key) (hbefore : Blank before) (hvalue : Reads cs (.value value))
    (hafter : Blank after) {mode : Mode} (hmode : AwaitsKey mode) (stack : List Frame)
    (earlier : List (Option String × Json)) :
    (front ++ before ++ cs ++ after).foldlM step ⟨.object earlier none :: stack, mode⟩ =
      some ⟨.object ((some key, value) :: earlier) none :: stack, .separator⟩ := by
  have helement := foldlM_element hbefore hvalue hafter (Or.inl rfl)
    (.object earlier (some key) :: stack)
  rw [List.append_assoc, List.append_assoc, ← List.append_assoc before, List.foldlM_append,
    foldlM_keyed hkey hmode]
  exact helement

/-- The members of an object are held backwards until it is closed. -/
theorem closeObject_reverse (members : List (String × Json)) :
    closeObject (members.map fun member => (some member.1, member.2)).reverse = .object members := by
  have hkeys : (members.map fun member => (some member.1, member.2)).mapM
      (fun member => member.1.map (·, member.2)) = some members := by
    induction members with
    | nil => rfl
    | cons member members ih => simp [ih]
  unfold closeObject
  rw [List.reverse_reverse]
  split
  · rename_i found hfound
    exact congrArg Json.object (Option.some.inj (hfound.symm.trans hkeys))
  · rename_i hnone
    cases hnone.symm.trans hkeys

/-- The reader moves over every text of the grammar as over what the text stands for. -/
theorem reads_of_writes {cs : List Char} {meaning : Meaning} (hwrites : Writes cs meaning) :
    Reads cs meaning := by
  induction hwrites with
  | null =>
    intro stack mode hmode
    obtain rfl | rfl := hmode <;> rfl
  | true =>
    intro stack mode hmode
    obtain rfl | rfl := hmode <;> rfl
  | false =>
    intro stack mode hmode
    obtain rfl | rfl := hmode <;> rfl
  | @string _ text hbody =>
    intro stack mode hmode
    have hend : step ⟨stack, .literal false ((text.toList.map Char.toNat).reverse ++ []) .outside⟩
        '"' = some (put ⟨stack, mode⟩ (.string text)) := by
      simp only [step, stepLiteral, putString, textOfPoints_map_toNat]
      rfl
    exact foldlM_bracketed (step_begin hmode stack rfl (by decide)) (foldlM_spelled hbody stack _ [])
      hend
  | emptyArray hgap =>
    intro stack mode hmode
    have hblank := foldlM_blank hgap (show Between .firstItem from trivial) (.array [] :: stack)
    exact foldlM_bracketed (step_begin hmode stack rfl (by decide)) hblank rfl
  | @array _ items _ ih =>
    intro stack mode hmode
    have hitems := ih stack [] (Or.inr rfl)
    have hclose : step ⟨.array (items.reverse ++ []) :: stack, .separator⟩ ']' =
        some (put ⟨stack, mode⟩ (.array (items.reverse ++ []).reverse)) := rfl
    rw [List.append_nil, List.reverse_reverse] at hclose
    rw [List.append_nil] at hitems
    exact foldlM_bracketed (step_begin hmode stack rfl (by decide)) hitems hclose
  | emptyObject hgap =>
    intro stack mode hmode
    have hblank := foldlM_blank hgap (show Between .firstKey from trivial) (.object [] none :: stack)
    exact foldlM_bracketed (step_begin hmode stack rfl (by decide)) hblank rfl
  | @object _ members _ ih =>
    intro stack mode hmode
    have hmembers := ih stack [] (Or.inl rfl)
    rw [List.append_nil] at hmembers
    have hclose := congrArg (fun value => some (put ⟨stack, mode⟩ value))
      (closeObject_reverse members)
    exact foldlM_bracketed (step_begin hmode stack rfl (by decide)) hmembers hclose
  | lastItem hbefore _ hafter ih =>
    intro stack earlier mode hmode
    exact foldlM_element hbefore ih hafter hmode (.array earlier :: stack)
  | @item _ _ _ _ value items hbefore _ hafter _ ih hrest =>
    intro stack earlier mode hmode
    have hitem := foldlM_element hbefore ih hafter hmode (.array earlier :: stack)
    have hitems := hrest stack (value :: earlier) (Or.inl rfl)
    have hread := foldlM_separated hitem rfl hitems
    simpa only [List.reverse_cons, List.append_assoc, List.singleton_append] using hread
  | lastMember hkey hbefore _ hafter ih =>
    intro stack earlier mode hmode
    exact foldlM_member hkey hbefore ih hafter hmode stack earlier
  | @member _ _ _ _ _ key value members hkey hbefore _ hafter _ ih hrest =>
    intro stack earlier mode hmode
    have hmember := foldlM_member hkey hbefore ih hafter hmode stack earlier
    have hmembers := hrest stack ((some key, value) :: earlier) (Or.inr rfl)
    have hread := foldlM_separated hmember rfl hmembers
    simpa only [List.map_cons, List.reverse_cons, List.append_assoc, List.singleton_append] using
      hread

end Machine

/-- Strict documents are read as the values they have. -/
theorem read?_of_document {text : String} {value : Json} (hdocument : Document text value) :
    read? text = some value := by
  obtain ⟨hbefore, hvalue, hafter⟩ := hdocument
  have hread := Machine.foldlM_element hbefore (Machine.reads_of_writes hvalue) hafter
    (Or.inl rfl) []
  rw [read?, String.toList_ofList]
  have hstart : ({} : Machine) = ⟨[], .value⟩ := rfl
  rw [hstart, hread]
  rfl

end PolicyForge.Json
