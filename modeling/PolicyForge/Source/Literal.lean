import PolicyForge.Text.Basic
import PolicyForge.Text.Cut
import PolicyForge.Text.ExtenderRanges
import PolicyForge.Text.UnprintableRanges

namespace PolicyForge.Text

/-- Whether a code point lies in one of the ranges, whose ends belong to them. -/
def inRanges (ranges : List (Nat × Nat)) (n : Nat) : Bool :=
  ranges.any fun (first, last) => first ≤ n && n ≤ last

/-- The fillers of Hangul syllables: letters by category, but with nothing to see. They are the only
characters with the property `Default_Ignorable_Code_Point` that neither table has. -/
def fillerRanges : List (Nat × Nat) :=
  [(0x115F, 0x1160), (0x3164, 0x3164), (0xFFA0, 0xFFA0)]

/-- Whether a character is visible, or the space, and stands on its own. The printable ASCII
characters are in no table, which saves looking for them. -/
def isPlain (c : Char) : Bool :=
  let n := c.toNat
  (0x20 ≤ n && n ≤ 0x7E) ||
    !(inRanges unprintableRanges n || inRanges extenderRanges n || inRanges fillerRanges n)

end PolicyForge.Text

namespace PolicyForge.Source.Literal

/-- A character as it stands inside a literal. One that cannot be told from a printed line is
written as its code point. -/
def escape (c : Char) : List Char :=
  if c == '\x00' then ['\\', '0']
  else if c == '\t' then ['\\', 't']
  else if c == '\r' then ['\\', 'r']
  else if c == '\n' then ['\\', 'n']
  else if c == '\\' then ['\\', '\\']
  else if c == '"' then ['\\', '"']
  else if Text.isPlain c then [c]
  else '\\' :: 'u' :: '{' :: Text.hexadecimal c.toNat ++ ['}']

/-- The text as a literal. -/
def write (text : String) : String :=
  String.ofList ('"' :: text.toList.flatMap escape ++ ['"'])

/-- The value of a numeral in base sixteen with small digits. -/
def hexValue? : List Char → Option Nat :=
  List.foldlM (fun value c =>
    if c.isDigit then some (16 * value + (c.toNat - '0'.toNat))
    else if 'a' ≤ c && c ≤ 'f' then some (16 * value + (c.toNat - 'a'.toNat + 10))
    else none) 0

/-- The character of an escape of one letter. -/
def shortEscape? (c : Char) : Option Char :=
  if c == '0' then some '\x00'
  else if c == 't' then some '\t'
  else if c == 'r' then some '\r'
  else if c == 'n' then some '\n'
  else if c == '\\' then some '\\'
  else if c == '"' then some '"'
  else none

/-- The characters up to the closing quote, and what follows it. -/
def readBody? (source : List Char) : Option (List Char × List Char) :=
  match source with
  | [] => none
  | '"' :: rest => some ([], rest)
  | '\\' :: 'u' :: '{' :: rest =>
    match h : Text.cutAt '}' rest with
    | none => none
    | some (digits, after) => do
      have : after.length < rest.length := Text.length_lt_of_cutAt h
      let point ← hexValue? digits
      let (text, rest) ← readBody? after
      return (Char.ofNat point :: text, rest)
  | '\\' :: c :: rest => do
    let c ← shortEscape? c
    let (text, rest) ← readBody? rest
    return (c :: text, rest)
  | c :: rest => do
    let (text, rest) ← readBody? rest
    return (c :: text, rest)
termination_by source.length

/-- The text of the literal at the start of a source, and what follows the literal. -/
def read? : List Char → Option (List Char × List Char)
  | '"' :: rest => readBody? rest
  | _ => none

/-- A list of literals. -/
def slice (texts : List String) : String :=
  "&[" ++ String.intercalate ", " (texts.map write) ++ "]"

end PolicyForge.Source.Literal
