import PolicyForge.Json.Basic

namespace PolicyForge.Json.Grammar

/-- Blanks that may stand between tokens. -/
def Blank (cs : List Char) : Prop :=
  ∀ c ∈ cs, c ∈ [' ', '\t', '\n', '\r']

/-- The characters that have an escape of one letter. -/
def shortEscapes : List (Char × Char) :=
  [('"', '"'), ('\\', '\\'), ('/', '/'), ('b', '\x08'), ('f', '\x0c'), ('n', '\n'), ('r', '\r'),
    ('t', '\t')]

/-- The digits in base sixteen, in either case, with their values. -/
def hexDigits : List (Char × Nat) :=
  "0123456789abcdef".toList.zipIdx ++ "ABCDEF".toList.zipIdx 10

/-- A spelling of a character inside a string: itself, unless it has to be escaped, or an escape. -/
inductive SpelledChar : List Char → Char → Prop where
  | plain {c : Char} (hquote : c ≠ '"') (hbackslash : c ≠ '\\') (hcontrol : 0x20 ≤ c.toNat) :
      SpelledChar [c] c
  | short {letter c : Char} (hescape : (letter, c) ∈ shortEscapes) : SpelledChar ['\\', letter] c
  | unit {c₁ c₂ c₃ c₄ c : Char} {d₁ d₂ d₃ d₄ : Nat} (h₁ : (c₁, d₁) ∈ hexDigits)
      (h₂ : (c₂, d₂) ∈ hexDigits) (h₃ : (c₃, d₃) ∈ hexDigits) (h₄ : (c₄, d₄) ∈ hexDigits)
      (hpoint : ((d₁ * 16 + d₂) * 16 + d₃) * 16 + d₄ = c.toNat) :
      SpelledChar ['\\', 'u', c₁, c₂, c₃, c₄] c

/-- A spelling of a text between its quotes. -/
inductive Spelled : List Char → List Char → Prop where
  | nil : Spelled [] []
  | cons {spelling body text : List Char} {c : Char} (hchar : SpelledChar spelling c)
      (hrest : Spelled body text) : Spelled (spelling ++ body) (c :: text)

/-- A key in quotes and the colon behind it, with blanks in front of either. -/
inductive Keyed : List Char → String → Prop where
  | intro {before body between : List Char} {key : String} (hbefore : Blank before)
      (hbody : Spelled body key.toList) (hbetween : Blank between) :
      Keyed (before ++ '"' :: body ++ '"' :: between ++ [':']) key

/-- What a piece of text stands for. -/
inductive Meaning where
  | value (value : Json)
  | items (items : List Json)
  | members (members : List (String × Json))

/-- The texts of values, and of what stands between the brackets of arrays and objects that are not
empty. -/
inductive Writes : List Char → Meaning → Prop where
  | null : Writes "null".toList (.value .null)
  | true : Writes "true".toList (.value (.bool true))
  | false : Writes "false".toList (.value (.bool false))
  | string {body : List Char} {text : String} (hbody : Spelled body text.toList) :
      Writes ('"' :: body ++ ['"']) (.value (.string text))
  | emptyArray {gap : List Char} (hgap : Blank gap) : Writes ('[' :: gap ++ [']']) (.value (.array []))
  | array {body : List Char} {items : List Json} (hitems : Writes body (.items items)) :
      Writes ('[' :: body ++ [']']) (.value (.array items))
  | emptyObject {gap : List Char} (hgap : Blank gap) :
      Writes ('{' :: gap ++ ['}']) (.value (.object []))
  | object {body : List Char} {members : List (String × Json)}
      (hmembers : Writes body (.members members)) :
      Writes ('{' :: body ++ ['}']) (.value (.object members))
  | lastItem {before cs after : List Char} {value : Json} (hbefore : Blank before)
      (hvalue : Writes cs (.value value)) (hafter : Blank after) :
      Writes (before ++ cs ++ after) (.items [value])
  | item {before cs after rest : List Char} {value : Json} {items : List Json}
      (hbefore : Blank before) (hvalue : Writes cs (.value value)) (hafter : Blank after)
      (hrest : Writes rest (.items items)) :
      Writes (before ++ cs ++ after ++ ',' :: rest) (.items (value :: items))
  | lastMember {front before cs after : List Char} {key : String} {value : Json}
      (hkey : Keyed front key) (hbefore : Blank before) (hvalue : Writes cs (.value value))
      (hafter : Blank after) : Writes (front ++ before ++ cs ++ after) (.members [(key, value)])
  | member {front before cs after rest : List Char} {key : String} {value : Json}
      {members : List (String × Json)} (hkey : Keyed front key) (hbefore : Blank before)
      (hvalue : Writes cs (.value value)) (hafter : Blank after)
      (hrest : Writes rest (.members members)) :
      Writes (front ++ before ++ cs ++ after ++ ',' :: rest) (.members ((key, value) :: members))

/-- A text that is a JSON document with the given value: nothing but blanks stands around it. -/
inductive Document : String → Json → Prop where
  | intro {before cs after : List Char} {value : Json} (hbefore : Blank before)
      (hvalue : Writes cs (.value value)) (hafter : Blank after) :
      Document (String.ofList (before ++ cs ++ after)) value

theorem blank_nil : Blank [] := by
  simp [Blank]

end PolicyForge.Json.Grammar
